import SkillHive.Foundation.Decimals
import SkillHive.Foundation.Lists
import SkillHive.Foundation.NameChains
import SkillHive.Server.Revisions

/-!
# The tags of versions

A version that is created without a tag gets the next patch of the current version. The tag has to
be free among all versions of the skill, but only the current one is looked at. Publishing an older
version moves the current one back, and explicit tags may lie ahead of it.
-/

namespace SkillHive

open Foundation

namespace Server

/-! ## The chain of tags -/

/-- The tag after a tag, as a version without a tag of its own gets it. -/
def nextTag (tag : String) : String := (bumpPatch tag).getD "0.1.0"

/-- `f"{major}.{minor}.{patch}"` -/
def patchTag (major minor patch : ℕ) : String := s!"{major}.{minor}.{patch}"

theorem toList_patchTag (major minor patch : ℕ) : (patchTag major minor patch).toList =
    ['.'].intercalate [major.repr.toList, minor.repr.toList, patch.repr.toList] := by
  have htag : patchTag major minor patch =
      major.repr ++ "." ++ minor.repr ++ "." ++ patch.repr := rfl
  rw [htag]
  simp [String.toList_append, List.intercalate]

theorem notMem_repr {c : Char} (h : c.isDigit = false) (n : ℕ) : c ∉ n.repr.toList := by
  intro hmem
  rw [isDigit_of_mem_repr hmem] at h
  cases h

theorem splitOn_patchTag (major minor patch : ℕ) : (patchTag major minor patch).toList.splitOn '.' =
    [major.repr.toList, minor.repr.toList, patch.repr.toList] := by
  rw [toList_patchTag]
  apply List.splitOn_intercalate
  · simp only [List.mem_cons, List.not_mem_nil, or_false]
    rintro _ (rfl | rfl | rfl) <;> exact notMem_repr (by decide) _
  · exact List.cons_ne_nil _ _

theorem bumpPatch_patchTag (major minor patch : ℕ) :
    bumpPatch (patchTag major minor patch) = some (patchTag major minor (patch + 1)) := by
  have hbase : (patchTag major minor patch).toList.takeWhile (fun c ↦ c ≠ '-') =
      (patchTag major minor patch).toList := by
    rw [List.takeWhile_eq_self_iff]
    rintro c hc
    rw [toList_patchTag] at hc
    simp only [List.intercalate, List.intersperse_cons_cons, List.intersperse_singleton,
      List.flatten_cons, List.flatten_nil, List.append_nil, List.mem_append, List.mem_singleton] at hc
    rw [decide_eq_true_eq]
    rintro rfl
    rcases hc with hc | hc | hc | hc | hc
    · exact notMem_repr (by decide) _ hc
    · cases hc
    · exact notMem_repr (by decide) _ hc
    · cases hc
    · exact notMem_repr (by decide) _ hc
  unfold bumpPatch
  rw [hbase, splitOn_patchTag]
  simp only [List.map_cons, List.map_nil, String.ofList_toList, pythonInt_repr]
  rfl

theorem exists_patchTag_of_bumpPatch {tag bumped : String} (h : bumpPatch tag = some bumped) :
    ∃ major minor patch, bumped = patchTag major minor patch := by
  have hparts : ∀ value ∈ ((tag.toList.takeWhile fun c ↦ c ≠ '-').splitOn '.').map
      fun part ↦ pythonInt (String.ofList part), ∀ number ∈ value, ∃ n : ℕ, number = n := by
    simp only [List.forall_mem_map]
    intro part hpart number hnumber
    refine pythonInt_nonneg (fun hmem ↦ ?_) hnumber
    rw [String.toList_ofList] at hmem
    exact absurd (List.mem_takeWhile_imp (mem_of_mem_splitOn hpart hmem)) (by decide)
  unfold bumpPatch at h
  split at h
  case h_1 major minor patch heq =>
    rw [heq] at hparts
    obtain ⟨major, rfl⟩ := hparts (some major) (by simp) major rfl
    obtain ⟨minor, rfl⟩ := hparts (some minor) (by simp) minor rfl
    obtain ⟨patch, rfl⟩ := hparts (some patch) (by simp) patch rfl
    exact ⟨major, minor, patch + 1, (Option.some.inj h).symm⟩
  case h_2 => cases h

/-- Every tag that is drawn names a patch. -/
theorem exists_patchTag_nextTag (tag : String) :
    ∃ major minor patch, nextTag tag = patchTag major minor patch := by
  unfold nextTag
  cases hbump : bumpPatch tag with
  | none => exact ⟨0, 1, 0, rfl⟩
  | some bumped => exact exists_patchTag_of_bumpPatch hbump

theorem iterate_nextTag_patchTag (major minor patch n : ℕ) :
    nextTag^[n] (patchTag major minor patch) = patchTag major minor (patch + n) := by
  induction n with
  | zero => rfl
  | succ n ih =>
    rw [Function.iterate_succ_apply', ih, nextTag, bumpPatch_patchTag, Option.getD_some]
    rfl

theorem patchTag_injective {major minor patch patch' : ℕ}
    (h : patchTag major minor patch = patchTag major minor patch') : patch = patch' := by
  have hparts := congrArg (fun tag : String ↦ tag.toList.splitOn '.') h
  rw [splitOn_patchTag, splitOn_patchTag] at hparts
  simp only [List.cons.injEq, and_true, true_and] at hparts
  exact repr_injective (String.toList_inj.mp hparts)

/-- The chain does not come back to a tag. -/
theorem nextTag_chain (tag : String) (n : ℕ) : nextTag^[n + 1] tag ≠ tag := by
  intro h
  obtain ⟨major, minor, patch, htag⟩ := exists_patchTag_nextTag tag
  have hback : nextTag^[n + 1] (nextTag tag) = nextTag tag := by
    rw [← Function.iterate_succ_apply, Function.iterate_succ_apply', h]
  rw [htag, iterate_nextTag_patchTag] at hback
  have hpatch := patchTag_injective hback
  omega

/-! ## The tags of a skill -/

namespace Database

/-- The skill and the tag of a version. -/
def label? (db : Database) (id : RowId) : Option (RowId × String) :=
  (db.version? id).map fun row ↦ (row.skillId, row.version)

def takenTags (db : Database) (skillId : RowId) : Set String :=
  {tag | ∃ id, db.label? id = some (skillId, tag)}

/-- The tags that a skill has, and the one that it draws next. -/
def tagNames (db : Database) (skillId : RowId) : Option (Names String) :=
  (db.skill? skillId).map fun skill ↦ ⟨db.takenTags skillId, nextPatchVersion db skill⟩

end Database

variable {rt : Runtime} {db db' : Database} {ctx : RequestContext} {actor : RowId}
  {skill skill' : Skill}

theorem nextPatchVersion_eq (db : Database) (skill : Skill) : nextPatchVersion db skill =
    (skill.currentVersionId.bind db.label?).elim "0.1.0" fun label ↦ nextTag label.2 := by
  unfold nextPatchVersion Database.label?
  cases skill.currentVersionId with
  | none => rfl
  | some id =>
    rw [Option.bind_some, Option.bind_some]
    cases db.version? id <;> rfl

theorem mem_takenTags {skillId : RowId} {tag : String} : tag ∈ db.takenTags skillId ↔
    ∃ row ∈ db.versions.rows, row.skillId = skillId ∧ row.version = tag := by
  simp only [Database.takenTags, Set.mem_ofPred_eq, Database.label?, Option.map_eq_some_iff,
    Prod.mk.injEq]
  constructor
  · rintro ⟨id, row, hrow, howner, htag⟩
    exact ⟨row, Table.mem_of_get? hrow, howner, htag⟩
  · rintro ⟨row, hrow, howner, htag⟩
    exact ⟨row.id, row, Table.get?_of_mem hrow, howner, htag⟩

theorem ensureVersionAvailable_eq_ok {skillId : RowId} {tag : String} :
    ensureVersionAvailable db skillId tag = .ok () ↔ tag ∉ db.takenTags skillId := by
  rw [ensureVersionAvailable, require_eq_ok, mem_takenTags]
  push Not
  rfl

/-- A version belongs to a stored skill, and a skill has its current version. -/
structure Database.LabelsSound (db : Database) : Prop where
  owned : ∀ id skillId tag, db.label? id = some (skillId, tag) → db.skill? skillId ≠ none
  current : ∀ skillId skill, db.skill? skillId = some skill →
    ∃ id tag, skill.currentVersionId = some id ∧ db.label? id = some (skillId, tag)

theorem Database.VersionsSound.labels (h : db.VersionsSound) : db.LabelsSound := by
  constructor
  · intro id skillId tag hlabel
    obtain ⟨row, hrow, heq⟩ := Option.map_eq_some_iff.mp hlabel
    obtain ⟨rfl, -⟩ := Prod.mk.inj heq
    obtain ⟨skill, hskill, -⟩ := h.bounded id row hrow
    exact hskill ▸ Option.some_ne_none skill
  · intro skillId skill hskill
    obtain ⟨id, row, hpointer, hrow, rfl⟩ := h.current skillId skill hskill
    refine ⟨id, row.version, congrArg Prod.fst hpointer, ?_⟩
    rw [label?, hrow]
    rfl

/-! ## What a write does to the tags -/

/-- One skill is written, and its versions have these labels then. -/
structure WritesLabels (db : Database) (skill : Skill)
    (labels : RowId → Option (RowId × String)) (db' : Database) : Prop where
  skills : db'.skill? = Function.update db.skill? skill.id (some skill)
  labels : db'.label? = labels

namespace WritesLabels

variable {id skillId : RowId} {tag : String}

theorem skill_of_ne {labels : RowId → Option (RowId × String)}
    (h : WritesLabels db skill labels db') (hne : skillId ≠ skill.id) :
    db'.skill? skillId = db.skill? skillId := by
  rw [h.skills, Function.update_of_ne hne]

theorem skill_self {labels : RowId → Option (RowId × String)}
    (h : WritesLabels db skill labels db') : db'.skill? skill.id = some skill := by
  rw [h.skills, Function.update_self]

/-- Labels that stay, for a skill that is not the written one. -/
theorem tagNames_of_ne (h : WritesLabels db skill db.label? db') (hne : skillId ≠ skill.id) :
    db'.tagNames skillId = db.tagNames skillId := by
  unfold Database.tagNames Database.takenTags
  rw [h.skill_of_ne hne, h.labels]
  simp only [nextPatchVersion_eq, h.labels]

theorem tagNames_self (h : WritesLabels db skill db.label? db') :
    db'.tagNames skill.id = some ⟨db.takenTags skill.id, nextPatchVersion db skill⟩ := by
  unfold Database.tagNames Database.takenTags
  rw [h.skill_self, h.labels]
  simp only [nextPatchVersion_eq, h.labels, Option.map_some]

/-- The current version stays. -/
theorem kept {old : Skill} (h : WritesLabels db skill db.label? db')
    (hold : db.skill? skill.id = some old)
    (hcurrent : skill.currentVersionId = old.currentVersionId) (skillId : RowId) :
    db'.tagNames skillId = db.tagNames skillId := by
  by_cases hid : skillId = skill.id
  · subst hid
    rw [h.tagNames_self, Database.tagNames, hold, Option.map_some, nextPatchVersion_eq,
      nextPatchVersion_eq, hcurrent]
  · exact h.tagNames_of_ne hid

/-- Another version becomes the current one. -/
theorem moved (h : WritesLabels db skill db.label? db') (hid : skill.id = skillId)
    (hlabel : db.label? id = some (skillId, tag)) (hcurrent : skill.currentVersionId = some id) :
    db'.tagNames skillId = some ⟨db.takenTags skillId, nextTag tag⟩ := by
  subst hid
  rw [h.tagNames_self, nextPatchVersion_eq, hcurrent, Option.bind_some, hlabel]
  rfl

theorem takenTags_self {id : RowId} {tag : String}
    (h : WritesLabels db skill (Function.update db.label? id (some (skill.id, tag))) db')
    (hfree : db.label? id = none) :
    db'.takenTags skill.id = insert tag (db.takenTags skill.id) := by
  ext other
  rw [Set.mem_insert_iff]
  constructor
  · rintro ⟨versionId, hlabel⟩
    rw [h.labels] at hlabel
    by_cases hid : versionId = id
    · rw [hid, Function.update_self, Option.some.injEq, Prod.mk.injEq] at hlabel
      exact .inl hlabel.2.symm
    · rw [Function.update_of_ne hid] at hlabel
      exact .inr ⟨versionId, hlabel⟩
  · rintro (rfl | ⟨versionId, hlabel⟩)
    · exact ⟨id, by rw [h.labels, Function.update_self]⟩
    · have hid : versionId ≠ id := by
        rintro rfl
        cases hfree.symm.trans hlabel
      exact ⟨versionId, by rw [h.labels, Function.update_of_ne hid, hlabel]⟩

/-- A version is added and becomes the current one. -/
theorem added {id : RowId} {tag : String}
    (h : WritesLabels db skill (Function.update db.label? id (some (skill.id, tag))) db')
    (hfree : db.label? id = none) (hcurrent : skill.currentVersionId = some id) :
    db'.tagNames skill.id = some ⟨insert tag (db.takenTags skill.id), nextTag tag⟩ := by
  rw [Database.tagNames, h.skill_self, Option.map_some, h.takenTags_self hfree, nextPatchVersion_eq,
    hcurrent, Option.bind_some, h.labels, Function.update_self]
  rfl

/-- A version that is added is none of another skill. -/
theorem added_of_ne {id skillId : RowId} {tag : String} (hsound : db.LabelsSound)
    (h : WritesLabels db skill (Function.update db.label? id (some (skill.id, tag))) db')
    (hfree : db.label? id = none) (hne : skillId ≠ skill.id) :
    db'.tagNames skillId = db.tagNames skillId := by
  have htaken : db'.takenTags skillId = db.takenTags skillId := by
    ext other
    unfold Database.takenTags
    simp only [Set.mem_ofPred_eq, h.labels]
    apply exists_congr
    intro versionId
    by_cases hid : versionId = id
    · rw [hid, Function.update_self, hfree, Option.some.injEq, Prod.mk.injEq]
      simp [Ne.symm hne]
    · rw [Function.update_of_ne hid]
  unfold Database.tagNames
  rw [h.skill_of_ne hne, htaken]
  cases hskill : db.skill? skillId with
  | none => rfl
  | some other =>
    obtain ⟨versionId, _, hcurrent, hlabel⟩ := hsound.current skillId other hskill
    have hid : versionId ≠ id := by
      rintro rfl
      cases hfree.symm.trans hlabel
    rw [Option.map_some, Option.map_some, nextPatchVersion_eq, nextPatchVersion_eq, hcurrent,
      Option.bind_some, Option.bind_some, h.labels, Function.update_of_ne hid]

end WritesLabels

/-- A purge takes the versions of its skill, and no others. -/
theorem Purged.tagNames (hsound : db.LabelsSound) (h : Purged db skill db') (skillId : RowId) :
    db'.tagNames skillId = if skillId = skill.id then none else db.tagNames skillId := by
  have hlabel : ∀ id, db'.label? id = (db.label? id).filter fun label ↦ label.1 ≠ skill.id := by
    intro id
    rw [Database.label?, Database.label?, h.versions]
    cases db.version? id with
    | none => rfl
    | some row =>
      simp only [Option.filter_some, Option.map_some]
      split <;> rfl
  unfold Database.tagNames
  split
  case isTrue hid =>
    rw [hid, h.skill_self]
    rfl
  case isFalse hid =>
    rw [h.skill_of_ne hid]
    have htaken : db'.takenTags skillId = db.takenTags skillId := by
      ext tag
      unfold Database.takenTags
      simp only [Set.mem_ofPred_eq, hlabel, Option.filter_eq_some_iff, decide_eq_true_eq]
      apply exists_congr
      intro id
      exact and_iff_left_of_imp fun _ ↦ hid
    rw [htaken]
    cases hskill : db.skill? skillId with
    | none => rfl
    | some other =>
      obtain ⟨id, _, hcurrent, hother⟩ := hsound.current skillId other hskill
      rw [Option.map_some, Option.map_some, nextPatchVersion_eq, nextPatchVersion_eq, hcurrent,
        Option.bind_some, Option.bind_some, hlabel, hother, Option.filter_some, if_pos]
      simpa using hid

/-! ## The operations -/

section Operations

theorem insertVersion_labels {row : SkillVersion} (h : insertVersion db row = .ok db') :
    db.label? row.id = none ∧
      db'.label? = Function.update db.label? row.id (some (row.skillId, row.version)) ∧
      db'.skill? = db.skill? := by
  obtain ⟨hfree, hversions, hskills, -, -⟩ := insertVersion_spec h
  refine ⟨?_, ?_, ?_⟩
  · rw [Database.label?, hfree]
    rfl
  · ext1 id
    rw [Database.label?, hversions]
    by_cases hid : id = row.id
    · rw [hid, Function.update_self, Function.update_self, Option.map_some]
    · rw [Function.update_of_ne hid, Function.update_of_ne hid, Database.label?]
  · simp only [funext_iff, Database.skill?, hskills, implies_true]

theorem Database.SameDomain.label? (h : db.SameDomain db') : db'.label? = db.label? := by
  simp only [funext_iff, Database.label?, Database.version?, h.versions, implies_true]

theorem commitSkill_writes {db₁ : Database} {old : Skill} {operation : ChangeOperation}
    (hold : db.skill? skill.id = some old) (hskills : db₁.skill? = db.skill?) :
    WritesLabels db skill db₁.label? (commitSkill db₁ skill operation) := by
  refine ⟨?_, rfl⟩
  rw [← hskills]
  exact Table.get?_replace_eq_update (by rw [← hold, ← hskills]; rfl)

/-- A commit after a version was inserted. -/
theorem commitSkill_adds {db₁ db₂ : Database} {old : Skill} {row : SkillVersion}
    {operation : ChangeOperation} (hold : db.skill? skill.id = some old)
    (hdomain : db.SameDomain db₁) (hinsert : insertVersion db₁ row = .ok db₂)
    (hskill : row.skillId = skill.id) :
    db.label? row.id = none ∧
      WritesLabels db skill (Function.update db.label? row.id (some (skill.id, row.version)))
        (commitSkill db₂ skill operation) := by
  obtain ⟨hfree, hlabels, hskills⟩ := insertVersion_labels hinsert
  have hsame : db₂.skill? = db.skill? := by
    rw [hskills]
    simp only [funext_iff, Database.skill?, hdomain.skills, implies_true]
  rw [hdomain.label?] at hfree hlabels
  rw [hskill] at hlabels
  exact ⟨hfree, hlabels ▸ commitSkill_writes hold hsame⟩

/-- A version with a free tag is added to a skill. -/
structure AddsVersion (db : Database) (skillId : RowId) (tag : String) (db' : Database) : Prop where
  tagNames : db'.tagNames skillId = some ⟨insert tag (db.takenTags skillId), nextTag tag⟩
  others : ∀ other, other ≠ skillId → db'.tagNames other = db.tagNames other
  free : tag ∉ db.takenTags skillId

theorem WritesLabels.addsVersion {id skillId : RowId} {tag : String} (hsound : db.LabelsSound)
    (h : WritesLabels db skill (Function.update db.label? id (some (skillId, tag))) db')
    (hid : skill.id = skillId) (hfree : db.label? id = none)
    (hcurrent : skill.currentVersionId = some id) (hnew : tag ∉ db.takenTags skillId) :
    AddsVersion db skillId tag db' := by
  subst hid
  exact ⟨h.added hfree hcurrent, fun _ hne ↦ h.added_of_ne hsound hfree hne, hnew⟩

theorem commitSkill_addsVersion {db₁ db₂ : Database} {skillId : RowId} {old : Skill}
    {row : SkillVersion} {operation : ChangeOperation} (hsound : db.LabelsSound)
    (hold : db.skill? skillId = some old) (hdomain : db.SameDomain db₁)
    (hinsert : insertVersion db₁ row = .ok db₂) (hskill : row.skillId = skillId)
    (havailable : ensureVersionAvailable db skillId row.version = .ok ())
    (hid : skill.id = skillId) (hcurrent : skill.currentVersionId = some row.id) :
    AddsVersion db skillId row.version (commitSkill db₂ skill operation) := by
  subst hid
  obtain ⟨hfree, hwrites⟩ : db.label? row.id = none ∧ WritesLabels db skill
      (Function.update db.label? row.id (some (skill.id, row.version)))
      (commitSkill db₂ skill operation) := commitSkill_adds hold hdomain hinsert hskill
  exact hwrites.addsVersion hsound rfl hfree hcurrent (ensureVersionAvailable_eq_ok.mp havailable)

theorem createSkill_addsVersion {args : NewSkill} {version : NewContent} (hsound : db.LabelsSound)
    (h : createSkill rt db ctx actor args version = .ok (db', skill')) :
    db.skill? ctx.newSkillId = none ∧ AddsVersion db ctx.newSkillId args.version db' := by
  obtain ⟨-, -, h⟩ := bind_eq_ok.mp h
  obtain ⟨-, -, h⟩ := bind_eq_ok.mp h
  obtain ⟨db₁, hskill, h⟩ := bind_eq_ok.mp h
  obtain ⟨⟨db₂, hash⟩, hpackage, h⟩ := bind_eq_ok.mp h
  obtain ⟨db₃, hversion, h⟩ := bind_eq_ok.mp h
  cases h
  obtain ⟨hnone, hskills, hversions, -, -⟩ := insertSkill_spec hskill
  have hnone : db.skill? ctx.newSkillId = none := hnone
  obtain ⟨hdomain, -⟩ := packageHashForContent_keeps hpackage
  obtain ⟨hfree, hlabels, hskills₃⟩ := insertVersion_labels hversion
  have hlabels₂ : db₂.label? = db.label? := by
    rw [hdomain.label?]
    simp only [funext_iff, Database.label?, Database.version?, hversions, implies_true]
  have hskills : db₁.skill? = Function.update db.skill? ctx.newSkillId
      (some (args.row ctx actor version.packageManifestHash)) := hskills
  have hskills₃ : db₃.skill? = db₁.skill? := by
    rw [hskills₃]
    simp only [funext_iff, Database.skill?, hdomain.skills, implies_true]
  have hadded : db₃.skills.get? ctx.newSkillId =
      some (args.row ctx actor version.packageManifestHash) :=
    (congrFun (hskills₃.trans hskills) ctx.newSkillId).trans (Function.update_self ..)
  rw [hlabels₂] at hfree hlabels
  have hempty : db.takenTags ctx.newSkillId = ∅ := by
    ext tag
    refine iff_of_false ?_ id
    rintro ⟨id, hlabel⟩
    exact hsound.owned id _ tag hlabel hnone
  have hwrites : ∀ committed : Skill, committed.id = ctx.newSkillId →
      WritesLabels db committed (Function.update db.label? ctx.newVersionId
        (some (ctx.newSkillId, args.version))) (commitSkill db₃ committed .upsert) := by
    intro committed hid
    refine ⟨?_, hlabels⟩
    calc (commitSkill db₃ committed .upsert).skill?
        = Function.update db₃.skill? committed.id (some committed) :=
          Table.get?_replace_eq_update (hid ▸ hadded)
      _ = Function.update db.skill? committed.id (some committed) := by
          rw [hskills₃, hskills, hid]
          exact Function.update_idem ..
  have hnew : args.version ∉ db.takenTags ctx.newSkillId := hempty ▸ Set.notMem_empty _
  exact ⟨hnone, (hwrites _ rfl).addsVersion hsound rfl hfree rfl hnew⟩

theorem updateContent_addsVersion {skillId : RowId} {old : Skill} {args : NewContent}
    {demote : Bool} (hsound : db.LabelsSound) (hold : db.skill? skillId = some old)
    (h : updateContent rt db ctx actor skill args demote = .ok (db', skill'))
    (hid : skill.id = skillId) :
    AddsVersion db skillId (args.givenVersion.getD (nextPatchVersion db skill)) db' := by
  subst hid
  obtain ⟨_, havailable, h⟩ := bind_eq_ok.mp h
  obtain ⟨⟨db₁, hash⟩, hpackage, h⟩ := bind_eq_ok.mp h
  obtain ⟨db₂, hversion, h⟩ := bind_eq_ok.mp h
  cases h
  exact commitSkill_addsVersion hsound hold (packageHashForContent_keeps hpackage).1 hversion rfl
    havailable rfl rfl

theorem createVersion_addsVersion {version : String} {args : NewContent} {publish demote : Bool}
    (hsound : db.LabelsSound) (hget : db.skill? skill.id = some skill)
    (h : createVersion rt db ctx actor skill version args publish demote = .ok (db', skill')) :
    AddsVersion db skill.id version db' := by
  obtain ⟨_, havailable, h⟩ := bind_eq_ok.mp h
  obtain ⟨⟨db₁, hash⟩, hpackage, h⟩ := bind_eq_ok.mp h
  obtain ⟨db₂, hversion, h⟩ := bind_eq_ok.mp h
  cases h
  exact commitSkill_addsVersion hsound hget (packageHashForContent_keeps hpackage).1 hversion rfl
    havailable rfl rfl

theorem rollbackVersion_addsVersion {source : SkillVersion} {changeLog : String}
    (hsound : db.LabelsSound) (hget : db.skill? skill.id = some skill)
    (h : rollbackVersion db ctx actor skill source changeLog = .ok (db', skill')) :
    AddsVersion db skill.id (nextPatchVersion db skill) db' := by
  obtain ⟨-, -, h⟩ := bind_eq_ok.mp h
  obtain ⟨_, havailable, h⟩ := bind_eq_ok.mp h
  obtain ⟨db₁, hversion, h⟩ := bind_eq_ok.mp h
  cases h
  exact commitSkill_addsVersion hsound hget (.refl db) hversion rfl havailable rfl rfl

theorem saveVersion_label? {row row' : SkillVersion} (hrow : db.version? row.id = some row)
    (hid : row'.id = row.id) (hskill : row'.skillId = row.skillId)
    (htag : row'.version = row.version) : (saveVersion db row').label? = db.label? := by
  ext1 id
  rw [Database.label?, saveVersion_version? hrow hid]
  by_cases heq : id = row.id
  · rw [heq, Function.update_self, Option.map_some, hskill, htag, Database.label?, hrow]
    rfl
  · rw [Function.update_of_ne heq, Database.label?]

/-- A version becomes the current one, or was it before. -/
theorem publishVersion_tagNames {version : SkillVersion} (hget : db.skill? skill.id = some skill)
    (hversion : db.version? version.id = some version)
    (h : publishVersion db skill version = .ok (db', skill')) :
    db'.tagNames skill.id = some ⟨db.takenTags skill.id, nextTag version.version⟩ ∧
      version.version ∈ db.takenTags skill.id ∧
      ∀ other, other ≠ skill.id → db'.tagNames other = db.tagNames other := by
  obtain ⟨_, howner, h⟩ := bind_eq_ok.mp h
  have howner : version.skillId = skill.id := require_eq_ok.mp howner
  have hlabel : db.label? version.id = some (skill.id, version.version) := by
    rw [Database.label?, hversion, Option.map_some, howner]
  dsimp only at h
  split at h
  case isTrue =>
    cases h
    have hwrites : ∀ committed : Skill, committed.id = skill.id → WritesLabels db committed
        db.label? (commitSkill (saveVersion db { version with status := .published }) committed
          .upsert) := by
      intro committed hid
      have hlabels : (saveVersion db { version with status := .published }).label? = db.label? :=
        saveVersion_label? hversion rfl rfl rfl
      rw [← hlabels]
      exact commitSkill_writes (hid ▸ hget) rfl
    refine ⟨(hwrites _ ?_).moved ?_ hlabel rfl, ⟨version.id, hlabel⟩,
      fun other hne ↦ (hwrites _ ?_).tagNames_of_ne hne⟩ <;> rfl
  case isFalse hsame =>
    cases h
    push Not at hsame
    refine ⟨?_, ⟨version.id, hlabel⟩, fun _ _ ↦ rfl⟩
    rw [Database.tagNames, hget, Option.map_some, nextPatchVersion_eq, hsame.2.1, Option.bind_some,
      hlabel]
    rfl

/-- The operations on a skill that leave its current version. -/
theorem commitSkill_keepsTags {committed : Skill} {operation : ChangeOperation} {db₁ : Database}
    (hget : db.skill? skill.id = some skill) (hid : committed.id = skill.id)
    (hcurrent : committed.currentVersionId = skill.currentVersionId)
    (hskills : db₁.skill? = db.skill?) (hlabels : db₁.label? = db.label?) (skillId : RowId) :
    (commitSkill db₁ committed operation).tagNames skillId = db.tagNames skillId := by
  rw [← hid] at hget
  have hwrites : WritesLabels db committed db₁.label? (commitSkill db₁ committed operation) :=
    commitSkill_writes hget hskills
  rw [hlabels] at hwrites
  exact hwrites.kept hget hcurrent skillId

theorem updateSkill_keepsTags {updates : SkillUpdates} {demote : Bool}
    (hget : db.skill? skill.id = some skill)
    (h : updateSkill rt db ctx actor skill updates none demote = .ok (db', skill'))
    (skillId : RowId) : db'.tagNames skillId = db.tagNames skillId := by
  simp only [updateSkill] at h
  split at h
  case isTrue =>
    cases h
    rfl
  case isFalse =>
    cases h
    refine commitSkill_keepsTags hget ?_ ?_ ?_ ?_ skillId <;> rfl

theorem setStatus_keepsTags (status : SkillStatus) (hget : db.skill? skill.id = some skill)
    (skillId : RowId) : (setStatus db skill status).1.tagNames skillId = db.tagNames skillId := by
  unfold setStatus
  split
  case isTrue => rfl
  case isFalse => refine commitSkill_keepsTags hget ?_ ?_ ?_ ?_ skillId <;> rfl

theorem softDelete_keepsTags (ctx : RequestContext) (hget : db.skill? skill.id = some skill)
    (skillId : RowId) : (softDelete db ctx skill).1.tagNames skillId = db.tagNames skillId := by
  unfold softDelete
  split
  case isTrue => rfl
  case isFalse => refine commitSkill_keepsTags hget ?_ ?_ ?_ ?_ skillId <;> rfl

theorem restoreSkill_keepsTags (hget : db.skill? skill.id = some skill)
    (h : restoreSkill db skill = .ok (db', skill')) (skillId : RowId) :
    db'.tagNames skillId = db.tagNames skillId := by
  obtain ⟨-, -, h⟩ := bind_eq_ok.mp h
  cases h
  refine commitSkill_keepsTags hget ?_ ?_ ?_ ?_ skillId <;> rfl

theorem setVersionTags_keepsTags {version : SkillVersion} {tags : List String}
    (hget : db.skill? skill.id = some skill) (hversion : db.version? version.id = some version)
    (h : setVersionTags rt db skill version tags = .ok (db', skill')) (skillId : RowId) :
    db'.tagNames skillId = db.tagNames skillId := by
  obtain ⟨-, -, h⟩ := bind_eq_ok.mp h
  obtain ⟨-, -, h⟩ := bind_eq_ok.mp h
  split at h
  case isTrue =>
    cases h
    rfl
  case isFalse =>
    cases h
    refine commitSkill_keepsTags hget ?_ ?_ ?_ (saveVersion_label? hversion ?_ ?_ ?_) skillId <;> rfl

end Operations

/-! ## One step of the service -/

/-- The tag that an operation names, with the skill that has it then. -/
def SkillOperation.namedTag (db : Database) : SkillOperation → Option (RowId × String)
  | createSkill ctx _ args _ => some (ctx.newSkillId, args.version)
  | updateSkill _ _ skillId _ content _ =>
    content.bind fun args ↦ args.givenVersion.map (skillId, ·)
  | createVersion _ _ skillId version _ _ _ => some (skillId, version)
  | publishVersion skillId versionId => (db.version? versionId).map fun row ↦ (skillId, row.version)
  | setStatus .. | setVersionTags .. | rollbackVersion .. | softDelete .. | restoreSkill ..
  | purgeSkill .. => none

/-- The tag that is given to a skill, if the skill is the named one. -/
def givenTo (named : Option (RowId × String)) (skillId : RowId) : Option String :=
  (named.filter fun label ↦ label.1 = skillId).map Prod.snd

theorem givenTo_self (skillId : RowId) (tag : String) :
    givenTo (some (skillId, tag)) skillId = some tag := by
  simp [givenTo]

theorem givenTo_of_ne {skillId other : RowId} (tag : String) (hne : other ≠ skillId) :
    givenTo (some (skillId, tag)) other = none := by
  simp [givenTo, Ne.symm hne]

theorem mem_givenTo {named : Option (RowId × String)} {skillId : RowId} {tag : String} :
    tag ∈ givenTo named skillId ↔ named = some (skillId, tag) := by
  cases named with
  | none => simp [givenTo]
  | some label =>
    by_cases hid : label.1 = skillId
    · simp [givenTo, hid, Prod.ext_iff]
    · simp [givenTo, hid, Prod.ext_iff]

theorem AddsVersion.nameStep {skillId : RowId} {tag : String} (hsound : db.LabelsSound)
    (h : AddsVersion db skillId tag db') (other : RowId) :
    Names.Step nextTag (givenTo (some (skillId, tag)) other) (db.tagNames other)
      (db'.tagNames other) := by
  by_cases hid : other = skillId
  · subst hid
    rw [givenTo_self, h.tagNames]
    cases hskill : db.skill? other with
    | none =>
      have hempty : db.takenTags other = ∅ := by
        ext taken
        exact iff_of_false (fun ⟨id, hlabel⟩ ↦ hsound.owned id _ taken hlabel hskill) id
      rw [Database.tagNames, hskill, hempty, insert_empty_eq]
      exact .born tag rfl
    | some skill =>
      rw [Database.tagNames, hskill]
      exact .taken _ tag rfl
  · rw [givenTo_of_ne tag hid, h.others other hid]
    exact .kept _ rfl

/-- The tag of the version was drawn. -/
theorem AddsVersion.drawStep (hget : db.skill? skill.id = some skill)
    (h : AddsVersion db skill.id (nextPatchVersion db skill) db') (other : RowId) :
    Names.Step nextTag none (db.tagNames other) (db'.tagNames other) := by
  by_cases hid : other = skill.id
  · subst hid
    rw [h.tagNames, Database.tagNames, hget]
    exact .drawn _ rfl h.free
  · rw [h.others other hid]
    exact .kept _ rfl

namespace SkillOperation

theorem apply_nameStep {operation : SkillOperation} (hdb : db.VersionsSound)
    (h : operation.apply rt db = .ok db') (other : RowId) :
    Names.Step nextTag (givenTo (operation.namedTag db) other) (db.tagNames other)
      (db'.tagNames other) := by
  have hsound := hdb.labels
  cases operation with
  | createSkill ctx actor args version =>
    obtain ⟨skill, h⟩ := map_fst_eq_ok.mp h
    exact (createSkill_addsVersion hsound h).2.nameStep hsound other
  | updateSkill ctx actor skillId updates content demotePublished =>
    obtain ⟨skill, hload, h⟩ := bind_eq_ok.mp h
    obtain ⟨skill', hupdate⟩ := map_fst_eq_ok.mp h
    obtain ⟨hget, rfl⟩ := loadSkill_eq_ok hload
    cases content with
    | none =>
      rw [updateSkill_keepsTags hget hupdate other]
      exact .kept _ rfl
    | some args =>
      have hcontent : updateContent rt db ctx actor (updates.apply skill) args demotePublished =
          .ok (db', skill') := hupdate
      have hnext : nextPatchVersion db (updates.apply skill) = nextPatchVersion db skill := rfl
      have hadds := updateContent_addsVersion hsound hget hcontent rfl
      rw [hnext] at hadds
      cases hversion : args.givenVersion with
      | none =>
        rw [hversion] at hadds
        simp only [namedTag, Option.bind_some, hversion, Option.map_none]
        exact hadds.drawStep hget other
      | some tag =>
        rw [hversion] at hadds
        simp only [namedTag, Option.bind_some, hversion, Option.map_some]
        exact hadds.nameStep hsound other
  | createVersion ctx actor skillId version args publish demotePublished =>
    obtain ⟨skill, hload, h⟩ := bind_eq_ok.mp h
    obtain ⟨skill', hcreate⟩ := map_fst_eq_ok.mp h
    obtain ⟨hget, rfl⟩ := loadSkill_eq_ok hload
    exact (createVersion_addsVersion hsound hget hcreate).nameStep hsound other
  | publishVersion skillId versionId =>
    obtain ⟨skill, hload, h⟩ := bind_eq_ok.mp h
    obtain ⟨version, hversion, h⟩ := bind_eq_ok.mp h
    obtain ⟨skill', hpublish⟩ := map_fst_eq_ok.mp h
    obtain ⟨hget, rfl⟩ := loadSkill_eq_ok hload
    obtain ⟨htags, hmem, hothers⟩ :=
      publishVersion_tagNames hget (loadVersion_eq_ok hversion) hpublish
    simp only [namedTag, okOr_eq_ok.mp hversion, Option.map_some]
    by_cases hid : other = skill.id
    · subst hid
      rw [givenTo_self, htags, Database.tagNames, hget]
      exact .moved _ version.version rfl hmem
    · rw [givenTo_of_ne _ hid, hothers other hid]
      exact .kept _ rfl
  | setStatus skillId status =>
    obtain ⟨skill, hload, h⟩ := bind_eq_ok.mp h
    cases h
    rw [setStatus_keepsTags status (loadSkill_eq_ok hload).1 other]
    exact .kept _ rfl
  | setVersionTags skillId versionId tags =>
    obtain ⟨skill, hload, h⟩ := bind_eq_ok.mp h
    obtain ⟨version, hversion, h⟩ := bind_eq_ok.mp h
    obtain ⟨skill', h⟩ := map_fst_eq_ok.mp h
    rw [setVersionTags_keepsTags (loadSkill_eq_ok hload).1 (loadVersion_eq_ok hversion) h other]
    exact .kept _ rfl
  | rollbackVersion ctx actor skillId versionId changeLog =>
    obtain ⟨skill, hload, h⟩ := bind_eq_ok.mp h
    obtain ⟨version, -, h⟩ := bind_eq_ok.mp h
    obtain ⟨skill', h⟩ := map_fst_eq_ok.mp h
    have hget := (loadSkill_eq_ok hload).1
    exact (rollbackVersion_addsVersion hsound hget h).drawStep hget other
  | softDelete ctx skillId =>
    obtain ⟨skill, hload, h⟩ := bind_eq_ok.mp h
    cases h
    rw [softDelete_keepsTags ctx (loadSkill_eq_ok hload).1 other]
    exact .kept _ rfl
  | restoreSkill skillId =>
    obtain ⟨skill, hload, h⟩ := bind_eq_ok.mp h
    obtain ⟨skill', h⟩ := map_fst_eq_ok.mp h
    rw [restoreSkill_keepsTags (loadSkill_eq_ok hload).1 h other]
    exact .kept _ rfl
  | purgeSkill skillId =>
    obtain ⟨skill, hload, h⟩ := bind_eq_ok.mp h
    have hpurged := purgeSkill_step (loadSkill_eq_ok hload).1 h
    rw [hpurged.tagNames hsound other]
    split
    case isTrue => exact .gone _ rfl
    case isFalse => exact .kept _ rfl

theorem next_nameStep {operation : SkillOperation} (hdb : db.VersionsSound) (other : RowId) :
    Names.Step nextTag
      ((operation.apply rt db).toOption.bind fun _ ↦ givenTo (operation.namedTag db) other)
      (db.tagNames other) ((operation.next rt db).tagNames other) := by
  unfold next
  cases happly : operation.apply rt db with
  | error e => exact .kept _ rfl
  | ok db' => exact apply_nameStep hdb happly other

end SkillOperation

/-! ## Runs on which every tag that is drawn is free -/

/-- The checks of all versions to come pass, as long as none of them brings a tag. -/
def Database.DrawsAvailable (db : Database) : Prop :=
  ∀ skillId skill, db.skill? skillId = some skill → ∀ n,
    ensureVersionAvailable db skillId (nextTag^[n] (nextPatchVersion db skill)) = .ok ()

/-- No tag ahead of the one that a committed operation names is taken. -/
def SkillOperation.NamesLast (rt : Runtime) (db : Database) (operation : SkillOperation) : Prop :=
  ∀ db', operation.apply rt db = .ok db' →
    ∀ skillId tag, operation.namedTag db = some (skillId, tag) → ∀ n,
      ensureVersionAvailable db skillId (nextTag^[n + 1] tag) = .ok ()

theorem Database.drawsAvailable_iff :
    db.DrawsAvailable ↔ ∀ skillId, Names.AllClear nextTag (db.tagNames skillId) := by
  unfold DrawsAvailable Names.AllClear Names.Clear
  simp only [ensureVersionAvailable_eq_ok, Database.tagNames, Option.mem_def,
    Option.map_eq_some_iff, forall_exists_index, and_imp, forall_apply_eq_imp_iff₂]

theorem Database.VersionsSound.takenOf_tagNames (hdb : db.VersionsSound) (skillId : RowId) :
    Names.takenOf (db.tagNames skillId) = db.takenTags skillId := by
  cases hskill : db.skill? skillId with
  | none =>
    rw [Database.tagNames, hskill]
    ext tag
    exact iff_of_false id fun ⟨id, hlabel⟩ ↦ hdb.labels.owned id skillId tag hlabel hskill
  | some skill =>
    rw [Database.tagNames, hskill]
    rfl

theorem SkillOperation.next_drawsAvailable_iff {operation : SkillOperation}
    (hdb : db.VersionsSound) (hclear : db.DrawsAvailable) :
    (operation.next rt db).DrawsAvailable ↔ operation.NamesLast rt db := by
  have hstep : ∀ skillId, Names.AllClear nextTag ((operation.next rt db).tagNames skillId) ↔
      ∀ tag ∈ (operation.apply rt db).toOption.bind fun _ ↦ givenTo (operation.namedTag db) skillId,
        ∀ n, nextTag^[n + 1] tag ∉ db.takenTags skillId := by
    intro skillId
    rw [← hdb.takenOf_tagNames]
    exact (next_nameStep hdb skillId).allClear_iff nextTag_chain
      (Database.drawsAvailable_iff.mp hclear skillId)
  rw [Database.drawsAvailable_iff, forall_congr' hstep]
  unfold NamesLast
  cases operation.apply rt db with
  | error e => simp [Except.toOption]
  | ok db' =>
    simp only [Except.toOption, Option.bind_some, mem_givenTo, ensureVersionAvailable_eq_ok,
      Except.ok.injEq, forall_eq']

/-- Over every run from an empty store, the versions that bring no tag pass their check at any
time, however many of them follow, exactly if no committed operation names a tag behind a taken
one. -/
theorem run_drawsAvailable_iff {operations : List SkillOperation}
    (hinit : (skillService rt).init db) :
    (skillService rt).Always Database.DrawsAvailable db operations ↔
      (skillService rt).EachStep (fun s operation ↦ operation.NamesLast rt s) db operations := by
  apply TransitionSystem.always_iff_eachStep
  case I => exact Database.VersionsSound
  case hI =>
    intro s operation s' hs hstep
    obtain ⟨rfl, hfresh⟩ := skillService_step hstep
    exact (SkillOperation.next_domainStep hfresh).versionsSound hs
  case hstep =>
    intro s operation s' hs hclear hstep
    obtain ⟨rfl, -⟩ := skillService_step hstep
    exact SkillOperation.next_drawsAvailable_iff hs hclear
  case hinv => exact versionsSound_of_init hinit
  case hs =>
    intro skillId skill hskill
    rw [Database.skill?, hinit.1] at hskill
    cases hskill

namespace Sample

def createDemo : SkillOperation :=
  .createSkill (context version₁) user (syncSkill user demoMetadata)
    (syncVersion "demo" "# Demo" "" packageHash none)

/-- A new version that brings no tag. -/
def updateDemo : SkillOperation :=
  .updateSkill (context version₂) user skillId (syncUpdates demoMetadata)
    (some (syncVersion "demo" "# Demo" "" packageHash none)) false

end Sample

/-- The second version of the skill is not the last one that can be drawn. -/
theorem run_drawsAvailable_update :
    (skillService Sample.runtime).Always Database.DrawsAvailable Sample.database
      [Sample.createDemo, Sample.updateDemo] := by
  rw [run_drawsAvailable_iff ⟨rfl, rfl, rfl⟩]
  intro s _
  constructor
  · intro _ _ skillId tag _ n
    rw [ensureVersionAvailable_eq_ok, mem_takenTags]
    rintro ⟨row, hrow, -⟩
    cases hrow
  · intro s' _
    refine ⟨?_, trivial⟩
    intro _ _ skillId tag hnamed
    cases hnamed

/-! ## Skills whose next tag is taken -/

/-- `VERSION_EXISTS` -/
def versionExists : ServerError := appError "VERSION_EXISTS" "This version already exists." 409

/-- The skill gets no version that brings no tag: an update with content and a rollback fail, and
no update of a device is acknowledged. -/
structure Database.Stuck (rt : Runtime) (skillId : RowId) (db : Database) : Prop where
  update : ∀ ctx actor updates args demote, args.givenVersion = none →
    (SkillOperation.updateSkill ctx actor skillId updates (some args) demote).apply rt db =
      .error versionExists
  rollback : ∀ ctx actor row changeLog, db.version? row.id = some row → row.skillId = skillId →
    (SkillOperation.rollbackVersion ctx actor skillId row.id changeLog).apply rt db =
      .error versionExists
  sync : ∀ ctx userId request db' payload, request.operation = .update →
    request.remoteSkillId = some skillId →
    handleMutation rt db ctx userId request = .ok (db', payload) → payload.status ≠ .acked

theorem ensureVersionAvailable_eq_error {skillId : RowId} {tag : String}
    (h : tag ∈ db.takenTags skillId) :
    ensureVersionAvailable db skillId tag = .error versionExists := by
  have hfail : ensureVersionAvailable db skillId tag ≠ .ok () := by
    rw [Ne, ensureVersionAvailable_eq_ok, not_not]
    exact h
  unfold ensureVersionAvailable require at hfail ⊢
  split at hfail
  case isTrue => exact absurd rfl hfail
  case isFalse hcondition => rw [if_neg hcondition]; rfl

theorem updateContent_eq_error {args : NewContent} {demote : Bool}
    (hversion : args.givenVersion = none)
    (htaken : nextPatchVersion db skill ∈ db.takenTags skill.id) :
    updateContent rt db ctx actor skill args demote = .error versionExists := by
  rw [updateContent, hversion, Option.getD_none, ensureVersionAvailable_eq_error htaken]
  rfl

theorem rollbackVersion_eq_error {source : SkillVersion} {changeLog : String}
    (howner : source.skillId = skill.id) (htaken : nextPatchVersion db skill ∈ db.takenTags skill.id) :
    rollbackVersion db ctx actor skill source changeLog = .error versionExists := by
  have howned : require (source.skillId = skill.id) versionNotFound = .ok () :=
    require_eq_ok.mpr howner
  have hchecked : ensureVersionAvailable db skill.id (nextPatchVersion db skill) =
      .error versionExists := ensureVersionAvailable_eq_error htaken
  rw [rollbackVersion, howned]
  dsimp only
  rw [hchecked]
  rfl

theorem Database.Stuck.of_taken {skillId : RowId} {names : Names String}
    (hnames : db.tagNames skillId = some names) (htaken : names.candidate ∈ names.taken) :
    db.Stuck rt skillId := by
  obtain ⟨skill, hskill, rfl⟩ := Option.map_eq_some_iff.mp hnames
  have hid : skill.id = skillId := Table.key_of_get? hskill
  have hload : loadSkill db skillId = .ok skill := okOr_eq_ok.mpr hskill
  have htaken : nextPatchVersion db skill ∈ db.takenTags skill.id := hid ▸ htaken
  constructor
  · intro ctx actor updates args demote hversion
    have hupdate : updateContent rt db ctx actor (updates.apply skill) args demote =
        .error versionExists := updateContent_eq_error hversion htaken
    simp only [SkillOperation.apply, hload, updateSkill]
    exact congrArg (Prod.fst <$> ·) hupdate
  · intro ctx actor row changeLog hrow howner
    have hloaded : loadVersion db row.id = .ok row := okOr_eq_ok.mpr hrow
    have hrollback : rollbackVersion db ctx actor skill row changeLog = .error versionExists :=
      rollbackVersion_eq_error (howner.trans hid.symm) htaken
    simp only [SkillOperation.apply, hload, hloaded]
    exact congrArg (Prod.fst <$> ·) hrollback
  · intro ctx userId request db' payload hoperation hremote h
    rw [handleMutation, hoperation] at h
    obtain ⟨remoteSkillId, hsame, h⟩ := bind_eq_ok.mp h
    obtain ⟨metadata, -, h⟩ := bind_eq_ok.mp h
    obtain ⟨manifestHash, -, h⟩ := bind_eq_ok.mp h
    rw [okOr_eq_ok, hremote, Option.some.injEq] at hsame
    subst hsame
    split at h
    case h_1 =>
      rw [(recordReceipt_eq_ok h).1]
      rintro ⟨⟩
    case h_2 loaded hloaded =>
      split at h
      · rw [(recordReceipt_eq_ok h).1]
        rintro ⟨⟩
      split at h
      · rw [(recordReceipt_eq_ok h).1]
        rintro ⟨⟩
      · obtain ⟨-, -, h⟩ := bind_eq_ok.mp h
        obtain ⟨markdown, -, h⟩ := bind_eq_ok.mp h
        obtain ⟨⟨db₁, skill'⟩, hupdate, -⟩ := bind_eq_ok.mp h
        obtain ⟨hget, -⟩ := Option.filter_eq_some_iff.mp hloaded
        rw [hskill, Option.some.injEq] at hget
        subst hget
        have hfail : updateSkill rt db ctx userId skill (syncUpdates metadata)
            (some (syncVersion skill.slug markdown "Updated from desktop sync" manifestHash
              (some (packageSizeBytes db manifestHash)))) false = .error versionExists :=
          updateContent_eq_error rfl htaken
        cases hfail.symm.trans hupdate

/-- The operation names no tag for the skill and does not purge it. -/
def SkillOperation.Spares (skillId : RowId) (db : Database) (operation : SkillOperation) : Prop :=
  (∀ tag, operation.namedTag db ≠ some (skillId, tag)) ∧ operation.purges? ≠ some skillId

theorem SkillOperation.next_skill {operation : SkillOperation} {skillId : RowId}
    (hfresh : operation.DrawsFresh db) (hpurge : operation.purges? ≠ some skillId)
    (h : db.skill? skillId ≠ none) : (operation.next rt db).skill? skillId ≠ none := by
  cases hpurged : operation.purges? with
  | none =>
    have hnext : ChangesNothingOrWrites db (operation.next rt db) := next_writes hpurged hfresh
    rcases hnext with hsame | ⟨skill, change, hwritten, -⟩
    · rw [hsame]
      exact h
    · by_cases hid : skillId = skill.id
      · rw [hid, hwritten.skill_self]
        exact Option.some_ne_none skill
      · rw [hwritten.skill_of_ne hid]
        exact h
  | some other =>
    have hnext : ChangesNothingOrPurges other db (operation.next rt db) := next_purges hpurged
    rcases hnext with hsame | ⟨skill, hid, hpurges⟩
    · rw [hsame]
      exact h
    · have hne : skillId ≠ skill.id := by
        rintro rfl
        exact hpurge (hpurged.trans (congrArg some hid.symm))
      rw [hpurges.skill_of_ne hne]
      exact h

/-- A taken candidate stays taken until an operation names a tag. -/
theorem SkillOperation.next_tagNames_of_taken {operation : SkillOperation} {skillId : RowId}
    {names : Names String} (hdb : db.VersionsSound) (hfresh : operation.DrawsFresh db)
    (hspares : operation.Spares skillId db) (hnames : db.tagNames skillId = some names)
    (htaken : names.candidate ∈ names.taken) :
    (operation.next rt db).tagNames skillId = some names := by
  have hstep : Names.Step nextTag
      ((operation.apply rt db).toOption.bind fun _ ↦ givenTo (operation.namedTag db) skillId)
      (db.tagNames skillId) ((operation.next rt db).tagNames skillId) := next_nameStep hdb skillId
  have hgiven : ((operation.apply rt db).toOption.bind fun _ ↦
      givenTo (operation.namedTag db) skillId) = none := by
    rw [Option.bind_eq_none_iff]
    intro _ _
    rw [Option.eq_none_iff_forall_not_mem]
    intro tag hmem
    exact hspares.1 tag (mem_givenTo.mp hmem)
  rw [hgiven] at hstep
  apply hstep.stuck hnames htaken
  have hstored : db.skill? skillId ≠ none := by
    intro hnone
    rw [Database.tagNames, hnone] at hnames
    cases hnames
  unfold Database.tagNames
  rw [Ne, Option.map_eq_none_iff]
  exact next_skill hfresh hspares.2 hstored

/-- Once the next tag of a skill is taken, the skill has the versions that it has and gets none
without a tag of its own, until some operation names a tag for it. -/
theorem run_stuck {operations operations' : List SkillOperation} {db'' : Database}
    {skillId : RowId} (hinit : (skillService rt).init db)
    (hrun : (skillService rt).run db operations = some db')
    (hskill : db'.skill? skillId = some skill)
    (htaken : ensureVersionAvailable db' skillId (nextPatchVersion db' skill) ≠ .ok ())
    (hspares : (skillService rt).EachStep (fun s operation ↦ operation.Spares skillId s) db'
      operations')
    (hrun' : (skillService rt).run db' operations' = some db'') :
    db''.Stuck rt skillId ∧ db''.takenTags skillId = db'.takenTags skillId := by
  have hsound : db'.VersionsSound := by
    apply TransitionSystem.run_invariant ?_ (versionsSound_of_init hinit) hrun
    intro s operation s' hs hstep
    obtain ⟨rfl, hfresh⟩ := skillService_step hstep
    exact (SkillOperation.next_domainStep hfresh).versionsSound hs
  obtain ⟨names, hnames, htags, htaken⟩ : ∃ names, db'.tagNames skillId = some names ∧
      names.taken = db'.takenTags skillId ∧ names.candidate ∈ names.taken := by
    rw [Ne, ensureVersionAvailable_eq_ok, not_not] at htaken
    rw [Database.tagNames, hskill]
    exact ⟨_, rfl, rfl, htaken⟩
  have hstep : ∀ s operation s', s.VersionsSound ∧ s.tagNames skillId = some names →
      operation.Spares skillId s → (skillService rt).step s operation = some s' →
      s'.VersionsSound ∧ s'.tagNames skillId = some names := by
    rintro s operation s' ⟨hs, hsame⟩ hspared hstep
    obtain ⟨rfl, hfresh⟩ := skillService_step hstep
    exact ⟨(SkillOperation.next_domainStep hfresh).versionsSound hs,
      SkillOperation.next_tagNames_of_taken hs hfresh hspared hsame htaken⟩
  have hkept := hspares.run hstep ⟨hsound, hnames⟩ hrun'
  refine ⟨.of_taken hkept.2 htaken, ?_⟩
  rw [← hkept.1.takenOf_tagNames, hkept.2, ← htags]
  rfl

namespace Sample

/-- The first version is published again after the second one. -/
def publishRun : List SkillOperation :=
  [createDemo, updateDemo, .publishVersion skillId version₁]

/-- The skill goes to the trash and comes back. -/
def restoreRun : List SkillOperation :=
  [.softDelete (context version₂) skillId, .restoreSkill skillId]

def publishedDatabase : Database :=
  ((skillService runtime).run database publishRun).getD database

def restoredDatabase : Database :=
  ((skillService runtime).run publishedDatabase restoreRun).getD publishedDatabase

theorem restoreRun_spares {operation : SkillOperation} (hmem : operation ∈ restoreRun)
    (db : Database) : operation.Spares skillId db := by
  simp only [restoreRun, List.mem_cons, List.not_mem_nil, or_false] at hmem
  rcases hmem with rfl | rfl
  · exact ⟨nofun, nofun⟩
  · exact ⟨nofun, nofun⟩

end Sample

open Sample in
/-- The skill has the versions 0.1.0 and 0.1.1 and gets no third one. -/
theorem run_stuck_restored : restoredDatabase.Stuck runtime skillId ∧
    restoredDatabase.takenTags skillId = publishedDatabase.takenTags skillId := by
  have hrun : (skillService runtime).run database publishRun = some publishedDatabase :=
    TransitionSystem.run_eq_some_getD (by decide +kernel)
  have hrun' : (skillService runtime).run publishedDatabase restoreRun = some restoredDatabase :=
    TransitionSystem.run_eq_some_getD (by decide +kernel)
  have hnext : (publishedDatabase.skill? skillId).map (nextPatchVersion publishedDatabase) =
      some "0.1.1" := by decide +kernel
  obtain ⟨skill, hskill, hnext⟩ := Option.map_eq_some_iff.mp hnext
  refine run_stuck ⟨rfl, rfl, rfl⟩ hrun hskill ?_
    (TransitionSystem.eachStep_of_forall (fun _ hmem s ↦ restoreRun_spares hmem s) _) hrun'
  rw [Ne, ensureVersionAvailable_eq_ok, not_not, hnext]
  exact ⟨version₂, by decide +kernel⟩

end Server

end SkillHive
