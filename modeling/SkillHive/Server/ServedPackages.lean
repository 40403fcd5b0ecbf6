import SkillHive.Server.FeedPages
import SkillHive.Server.Revisions

/-!
# The packages that a page serves

A page serves for a skill the package that the skill has, or the one that is made from the
content of its current version. What it makes it attaches to the skill and to that version,
and to nothing else.
-/

namespace SkillHive

open Foundation

namespace Server

/-! ## Packages of legacy content -/

/-- The hash that `synthesize_legacy_package` returns. -/
def legacyPackage (rt : Runtime) (slug description : String) (content : Json) : Option BlobHash :=
  if strip (legacyBody content) = "" then none
  else
    let entrypoint := (entrypointMarkdown slug description (legacyBody content)).toUTF8
    some (rt.sha256 (canonicalManifest (rt.sha256 entrypoint) entrypoint.size).toUTF8)

theorem synthesizeLegacyPackage_hash {rt : Runtime} {db db' : Database} {storage : BlobStorage}
    {slug description : String} {content : Json} {hash : Option BlobHash}
    (h : synthesizeLegacyPackage rt db storage slug description content = .ok (db', hash)) :
    hash = legacyPackage rt slug description content := by
  unfold synthesizeLegacyPackage at h
  unfold legacyPackage
  split at h
  case isTrue hblank =>
    cases h
    rw [if_pos hblank]
  case isFalse hbody =>
    obtain ⟨_, -, h⟩ := bind_eq_ok.mp h
    obtain ⟨_, -, h⟩ := bind_eq_ok.mp h
    cases h
    rw [if_neg hbody]

/-- The package that the content of the current version of a skill makes. -/
def Database.legacyHash (rt : Runtime) (db : Database) (skillId : RowId) : Option BlobHash :=
  (db.skill? skillId).bind fun skill ↦ (skill.currentVersionId.bind db.version?).bind fun version ↦
    legacyPackage rt skill.slug skill.description version.content

/-- The version is the current one of its skill. -/
def Database.isCurrent (db : Database) (version : SkillVersion) : Bool :=
  (db.skill? version.skillId).any fun skill ↦ skill.currentVersionId = some version.id

/-- The version with a package, if it had none. -/
def SkillVersion.withPackage (package : Option BlobHash) (version : SkillVersion) : SkillVersion :=
  { version with packageManifestHash := version.packageManifestHash.or package }

theorem SkillVersion.withPackage_none (version : SkillVersion) :
    version.withPackage none = version := by
  rw [withPackage, Option.or_none]

theorem SkillVersion.withPackage_withPackage (first second : Option BlobHash)
    (version : SkillVersion) :
    (version.withPackage first).withPackage second = version.withPackage (first.or second) := by
  simp only [withPackage, Option.or_assoc]

/-! ## What a page attaches -/

/-- The package that is attached to the skill, when the skill is one of the given ones. -/
def attached (rt : Runtime) (db : Database) (ids : List RowId) (skillId : RowId) :
    Option BlobHash :=
  if skillId ∈ ids then db.legacyHash rt skillId else none

/-- The skills and versions of the first database, where the skills of the list and their
current versions have the packages of their contents if they had none. -/
structure Synthesized (rt : Runtime) (ids : List RowId) (db db' : Database) : Prop where
  skills : ∀ id, db'.skill? id = (db.skill? id).map (Skill.withPackage (attached rt db ids id))
  versions : ∀ id, db'.version? id = (db.version? id).map fun version ↦
    version.withPackage (if db.isCurrent version then attached rt db ids version.skillId else none)

variable {rt : Runtime} {db db' db'' : Database} {ids ids' : List RowId}

theorem attached_append (skillId : RowId) :
    (attached rt db ids skillId).or (attached rt db ids' skillId) =
      attached rt db (ids ++ ids') skillId := by
  simp only [attached, List.mem_append]
  by_cases hfirst : skillId ∈ ids
  · rw [if_pos hfirst, if_pos (Or.inl hfirst)]
    split
    · exact Option.or_self
    · exact Option.or_none
  · rw [if_neg hfirst, Option.none_or]
    by_cases hsecond : skillId ∈ ids'
    · rw [if_pos hsecond, if_pos (Or.inr hsecond)]
    · rw [if_neg hsecond, if_neg fun h ↦ h.elim hfirst hsecond]

namespace Synthesized

theorem of_sameDomain (h : db.SameDomain db') : Synthesized rt [] db db' := by
  have hskill : db'.skill? = db.skill? := by
    simp only [funext_iff, Database.skill?, h.skills, implies_true]
  have hversion : db'.version? = db.version? := by
    simp only [funext_iff, Database.version?, h.versions, implies_true]
  constructor
  · intro id
    rw [hskill]
    cases db.skill? id with
    | none => rfl
    | some skill => exact congrArg some skill.withPackage_none.symm
  · intro id
    rw [hversion]
    cases db.version? id with
    | none => rfl
    | some version =>
      have hnone : (if db.isCurrent version then attached rt db [] version.skillId else none) =
          none := by
        split <;> rfl
      rw [Option.map_some, hnone, version.withPackage_none]

theorem legacyHash_eq (h : Synthesized rt ids db db') (skillId : RowId) :
    db'.legacyHash rt skillId = db.legacyHash rt skillId := by
  unfold Database.legacyHash
  rw [h.skills]
  cases db.skill? skillId with
  | none => rfl
  | some skill =>
    simp only [Option.map_some, Option.bind_some, Skill.withPackage]
    cases skill.currentVersionId with
    | none => rfl
    | some versionId =>
      simp only [Option.bind_some]
      rw [h.versions]
      cases db.version? versionId <;> rfl

theorem attached_eq (h : Synthesized rt ids db db') (ids' : List RowId) (skillId : RowId) :
    attached rt db' ids' skillId = attached rt db ids' skillId := by
  rw [attached, attached, h.legacyHash_eq]

theorem isCurrent_eq (h : Synthesized rt ids db db') (version : SkillVersion)
    (package : Option BlobHash) :
    db'.isCurrent (version.withPackage package) = db.isCurrent version := by
  unfold Database.isCurrent SkillVersion.withPackage
  rw [h.skills]
  cases db.skill? version.skillId <;> rfl

theorem trans (h : Synthesized rt ids db db') (h' : Synthesized rt ids' db' db'') :
    Synthesized rt (ids ++ ids') db db'' := by
  constructor
  · intro id
    rw [h'.skills, h.skills, Option.map_map]
    cases db.skill? id with
    | none => rfl
    | some skill =>
      simp only [Option.map_some, Function.comp_apply, Skill.withPackage_withPackage,
        h.attached_eq, attached_append]
  · intro id
    rw [h'.versions, h.versions, Option.map_map]
    cases db.version? id with
    | none => rfl
    | some version =>
      simp only [Option.map_some, Function.comp_apply, h.isCurrent_eq, h.attached_eq,
        SkillVersion.withPackage_withPackage]
      cases db.isCurrent version with
      | false => rfl
      | true => simp only [if_true, ← attached_append, SkillVersion.withPackage]

/-- Nothing but packages differs. -/
theorem version_origin (h : Synthesized rt ids db db') {id : RowId} {stored : SkillVersion}
    (hstored : db'.version? id = some stored) :
    ∃ old package, db.version? id = some old ∧ stored = old.withPackage package := by
  rw [h.versions, Option.map_eq_some_iff] at hstored
  obtain ⟨old, hold, heq⟩ := hstored
  exact ⟨old, _, hold, heq.symm⟩

theorem versionsSound (h : Synthesized rt ids db db') (hdb : db.VersionsSound) :
    db'.VersionsSound := by
  constructor
  · intro id id' row row' hrow hrow' hskill hrevision
    obtain ⟨old, package, hold, rfl⟩ := h.version_origin hrow
    obtain ⟨old', package', hold', rfl⟩ := h.version_origin hrow'
    exact hdb.distinct id id' old old' hold hold' hskill hrevision
  · intro id row hrow
    obtain ⟨old, package, hold, rfl⟩ := h.version_origin hrow
    obtain ⟨skill, hskill, hle⟩ := hdb.bounded id old hold
    refine ⟨skill.withPackage (attached rt db ids old.skillId), ?_, hle⟩
    have hnew := h.skills old.skillId
    rw [hskill] at hnew
    exact hnew
  · intro skillId skill hskill
    rw [h.skills, Option.map_eq_some_iff] at hskill
    obtain ⟨old, hold, rfl⟩ := hskill
    obtain ⟨id, row, hpointer, hrow, howner⟩ := hdb.current skillId old hold
    obtain ⟨hid, hpackage⟩ := Prod.mk.inj hpointer
    have hcurrent : db.isCurrent row = true := by
      unfold Database.isCurrent
      have hkey : row.id = id := Table.key_of_get? hrow
      rw [howner, hold, Option.any_some, hkey]
      exact decide_eq_true hid
    refine ⟨id, row.withPackage (attached rt db ids skillId), ?_, ?_, howner⟩
    · exact Prod.ext hid (congrArg (Option.or · (attached rt db ids skillId)) hpackage)
    · rw [h.versions, hrow, Option.map_some, hcurrent, if_pos rfl, howner]

end Synthesized

/-! ## Serving one row -/

/-- The current version of a stored skill, which has the package that the skill names. -/
theorem Database.VersionsSound.exists_current (hdb : db.VersionsSound) {skillId : RowId}
    {skill : Skill} (hskill : db.skill? skillId = some skill) :
    ∃ version, skill.currentVersionId = some version.id ∧
      db.version? version.id = some version ∧ version.skillId = skillId ∧
      version.packageManifestHash = skill.currentPackageHash := by
  obtain ⟨id, version, hpointer, hversion, howner⟩ := hdb.current skillId skill hskill
  obtain ⟨hid, hpackage⟩ := Prod.mk.inj hpointer
  have hkey : version.id = id := Table.key_of_get? hversion
  subst hkey
  exact ⟨version, hid, hversion, howner, hpackage.symm⟩

theorem Database.isCurrent_iff {skill : Skill} {version : SkillVersion}
    (hskill : db.skill? version.skillId = some skill) :
    db.isCurrent version = true ↔ skill.currentVersionId = some version.id := by
  rw [isCurrent, hskill, Option.any_some, decide_eq_true_iff]

/-- A skill and its current version get the package of the content, and nothing else
differs. -/
theorem synthesized_of_update (hdb : db.VersionsSound) {skill : Skill} {version : SkillVersion}
    (hskill : db.skill? skill.id = some skill)
    (hcurrent : skill.currentVersionId = some version.id)
    (hversion : db.version? version.id = some version)
    (hskills : db'.skill? = Function.update db.skill? skill.id
      (some (skill.withPackage (db.legacyHash rt skill.id))))
    (hversions : db'.version? = Function.update db.version? version.id
      (some (version.withPackage (db.legacyHash rt skill.id)))) :
    Synthesized rt [skill.id] db db' := by
  obtain ⟨version', hcurrent', hversion', howner, -⟩ := hdb.exists_current hskill
  have hid : version.id = version'.id := Option.some.inj (hcurrent.symm.trans hcurrent')
  have heq : version = version' := by
    rw [hid] at hversion
    exact Option.some.inj (hversion.symm.trans hversion')
  subst heq
  constructor
  · intro id
    rw [hskills, Function.update_apply]
    by_cases hid : id = skill.id
    · subst hid
      rw [if_pos rfl, hskill, Option.map_some, attached, if_pos (List.mem_singleton_self _)]
    · rw [if_neg hid, attached, if_neg fun hmem ↦ hid (List.mem_singleton.mp hmem)]
      cases db.skill? id with
      | none => rfl
      | some other => rw [Option.map_some, Skill.withPackage_none]
  · intro id
    rw [hversions, Function.update_apply]
    by_cases hid : id = version.id
    · subst hid
      have hisCurrent : db.isCurrent version = true := by
        have hthis : db.skill? version.skillId = some skill := by
          rw [howner]
          exact hskill
        exact (Database.isCurrent_iff hthis).mpr hcurrent
      rw [if_pos rfl, hversion, Option.map_some, hisCurrent, if_pos rfl, howner, attached,
        if_pos (List.mem_singleton_self _)]
    · rw [if_neg hid]
      cases hother : db.version? id with
      | none => rfl
      | some other =>
        have hkey : other.id = id := Table.key_of_get? hother
        have hnone : (if db.isCurrent other then attached rt db [skill.id] other.skillId
            else none) = none := by
          split
          case isFalse => rfl
          case isTrue hisCurrent =>
            rw [attached, if_neg]
            intro hmem
            have howner' : other.skillId = skill.id := List.mem_singleton.mp hmem
            have hstored : db.skill? other.skillId = some skill := by
              rw [howner']
              exact hskill
            have hpointer := (Database.isCurrent_iff hstored).mp hisCurrent
            have hsame : other.id = version.id := Option.some.inj (hpointer.symm.trans hcurrent)
            exact hid (hkey.symm.trans hsame)
        rw [Option.map_some, hnone, SkillVersion.withPackage_none]

theorem ensureLegacyPackage_synthesized {storage : BlobStorage} {skill : Skill}
    (hdb : db.VersionsSound) (hskill : db.skill? skill.id = some skill)
    (h : ensureLegacyPackage rt db storage skill = .ok db') :
    Synthesized rt [skill.id] db db' := by
  obtain ⟨version, hcurrent, hversion, howner, hpackage⟩ := hdb.exists_current hskill
  have hlegacy : db.legacyHash rt skill.id =
      legacyPackage rt skill.slug skill.description version.content := by
    rw [Database.legacyHash, hskill, Option.bind_some, hcurrent, Option.bind_some, hversion,
      Option.bind_some]
  unfold ensureLegacyPackage at h
  split at h
  case isTrue hpackaged =>
    cases h
    obtain ⟨hash, hhash⟩ := Option.ne_none_iff_exists'.mp hpackaged
    apply synthesized_of_update hdb hskill hcurrent hversion
    · have hsame : skill.withPackage (db.legacyHash rt skill.id) = skill := by
        rw [Skill.withPackage, hhash, Option.some_or, ← hhash]
      rw [hsame, ← hskill, Function.update_eq_self]
    · have hsame : version.withPackage (db.legacyHash rt skill.id) = version := by
        rw [SkillVersion.withPackage, hpackage, hhash, Option.some_or, ← hhash, ← hpackage]
      rw [hsame, ← hversion, Function.update_eq_self]
  case isFalse hnone =>
    rw [not_not] at hnone
    rw [hcurrent, Option.bind_some, hversion] at h
    obtain ⟨⟨db₁, hash⟩, hsynthesize, h⟩ := bind_eq_ok.mp h
    cases h
    have hdomain := (synthesizeLegacyPackage_sameButBlobs hsynthesize).domain
    have hhash : hash = db.legacyHash rt skill.id :=
      (synthesizeLegacyPackage_hash hsynthesize).trans hlegacy.symm
    have hskills₁ : db₁.skill? = db.skill? := by
      simp only [funext_iff, Database.skill?, hdomain.skills, implies_true]
    have hversions₁ : db₁.version? = db.version? := by
      simp only [funext_iff, Database.version?, hdomain.versions, implies_true]
    have hskill' : skill.withPackage hash = { skill with currentPackageHash := hash } := by
      rw [Skill.withPackage, hnone, Option.none_or]
    have hversion' : version.withPackage hash = { version with packageManifestHash := hash } := by
      rw [SkillVersion.withPackage, hpackage, hnone, Option.none_or]
    apply synthesized_of_update hdb hskill hcurrent hversion
    · rw [← hhash, hskill']
      cases hash with
      | none =>
        have hsame : { skill with currentPackageHash := none } = skill := by rw [← hnone]
        rw [hsame, ← hskill, Function.update_eq_self]
        exact hskills₁
      | some hash =>
        rw [← hskills₁]
        exact Table.get?_replace_eq_update (hskills₁ ▸ hskill)
    · rw [← hhash, hversion']
      cases hash with
      | none =>
        have hsame : { version with packageManifestHash := none } = version := by
          rw [← hnone, ← hpackage]
        rw [hsame, ← hversion, Function.update_eq_self]
        exact hversions₁
      | some hash =>
        rw [← hversions₁]
        exact Table.get?_replace_eq_update (hversions₁ ▸ hversion)

/-! ## Serving a page -/

/-- The package that a page serves for a skill. -/
def Database.servedPackage (rt : Runtime) (db : Database) (skill : Skill) : Option BlobHash :=
  skill.currentPackageHash.or (db.legacyHash rt skill.id)

/-- The item is of an upsert row whose skill is one of the list, and ships the package that
the database has for it. -/
structure ShipsPackage (rt : Runtime) (db : Database) (ids : List RowId) (item : SyncChangeItem) :
    Prop where
  listed : item.resourceId ∈ ids
  package : ∃ skill, db.skill? item.resourceId = some skill ∧
    item.packageManifestHash = db.servedPackage rt skill

variable {ctx : FeedContext} {userId : RowId}

theorem ShipsPackage.mono {item : SyncChangeItem} (h : ShipsPackage rt db ids item)
    (hids : ∀ id ∈ ids, id ∈ ids') : ShipsPackage rt db ids' item :=
  ⟨hids _ h.listed, h.package⟩

/-- What an earlier page has made, a later one serves as it is. -/
theorem ShipsPackage.of_synthesized {item : SyncChangeItem} (h : ShipsPackage rt db' ids' item)
    (hserved : Synthesized rt ids db db') : ShipsPackage rt db ids' item := by
  obtain ⟨skill, hskill, hpackage⟩ := h.package
  rw [hserved.skills, Option.map_eq_some_iff] at hskill
  obtain ⟨old, hold, rfl⟩ := hskill
  refine ⟨h.listed, old, hold, ?_⟩
  have hid : old.id = item.resourceId := Table.key_of_get? hold
  rw [hpackage, Database.servedPackage, Database.servedPackage, hserved.legacyHash_eq]
  simp only [Skill.withPackage, Option.or_assoc, hid]
  unfold attached
  split
  · rw [Option.or_self]
  · rw [Option.none_or]

theorem project_shipsPackage {row : SyncChangeLog} {item : Option SyncChangeItem}
    (hdb : db.VersionsSound) (h : project rt ctx userId db row = .ok (db', item)) :
    ∃ ids, Synthesized rt ids db db' ∧
      ∀ served ∈ item, served.operation = .upsert → ShipsPackage rt db ids served := by
  unfold project at h
  split at h
  case h_1 skill hvisible hskill hoperation =>
    obtain ⟨db₁, hensure, h⟩ := bind_eq_ok.mp h
    cases h
    have hid : skill.id = row.resourceId := Table.key_of_get? hskill
    have hstored : db.skill? skill.id = some skill := hid ▸ hskill
    have hserved : Synthesized rt [skill.id] db db' :=
      ensureLegacyPackage_synthesized hdb hstored hensure
    refine ⟨[skill.id], hserved, ?_⟩
    rintro served ⟨⟩ -
    refine ⟨hid ▸ List.mem_singleton_self _, skill, hskill, ?_⟩
    simp only [upsertItem, hserved.skills, hstored, Option.map_some, Option.bind_some,
      Skill.withPackage, attached, List.mem_singleton, if_true, Database.servedPackage]
  case h_2 =>
    cases h
    refine ⟨[], .of_sameDomain (.refl db), ?_⟩
    rintro served ⟨⟩ hupsert
    cases hupsert
  case h_3 =>
    cases h
    refine ⟨[], .of_sameDomain (.refl db), ?_⟩
    rintro served ⟨⟩

theorem projectNext_shipsPackage {page : List SyncChangeLog}
    {acc acc' : Database × List SyncChangeItem} (hdb : acc.1.VersionsSound)
    (h : foldE (projectNext rt ctx userId) acc page = .ok acc') :
    ∃ ids items, Synthesized rt ids acc.1 acc'.1 ∧ acc'.2 = acc.2 ++ items ∧
      ∀ item ∈ items, item.operation = .upsert → ShipsPackage rt acc.1 ids item := by
  induction page generalizing acc with
  | nil =>
    cases h
    refine ⟨[], [], .of_sameDomain (.refl _), (List.append_nil _).symm, ?_⟩
    rintro item ⟨⟩
  | cons row page ih =>
    obtain ⟨acc₁, hrow, hrest⟩ := foldE_cons_eq_ok.mp h
    obtain ⟨⟨db₁, item⟩, hproject, hrow⟩ := bind_eq_ok.mp hrow
    cases hrow
    obtain ⟨ids, hserved, hitem⟩ := project_shipsPackage hdb hproject
    obtain ⟨ids', items, hserved', hitems, hships⟩ := ih (hserved.versionsSound hdb) hrest
    refine ⟨ids ++ ids', item.toList ++ items, hserved.trans hserved', ?_, ?_⟩
    · rw [hitems, List.append_assoc]
    · intro served hmem hupsert
      rcases List.mem_append.mp hmem with hfirst | hlater
      · exact (hitem served (Option.mem_toList.mp hfirst) hupsert).mono fun id hid ↦
          List.mem_append_left ids' hid
      · exact ((hships served hlater hupsert).of_synthesized hserved).mono fun id hid ↦
          List.mem_append_right ids hid

/-- A page attaches packages to the skills of some list, which has every skill that it serves
alive. -/
theorem listChanges_shipsPackage {cursor : Option String} {limit : ℕ}
    {response : SyncChangesResponse} (hdb : db.VersionsSound)
    (h : listChanges rt ctx db userId cursor limit = .ok (db', response)) :
    ∃ ids, Synthesized rt ids db db' ∧
      ∀ item ∈ response.changes, item.operation = .upsert → ShipsPackage rt db ids item := by
  unfold listChanges at h
  split at h
  case h_1 => cases h
  case h_2 sequence hdecode =>
    obtain ⟨_, -, h⟩ := bind_eq_ok.mp h
    obtain ⟨⟨db₁, items⟩, hpage, h⟩ := bind_eq_ok.mp h
    dsimp only at h
    split at h
    case h_1 => cases h
    case h_2 nextCursor hcursor =>
      cases h
      obtain ⟨ids, served, hserved, hitems, hships⟩ := projectNext_shipsPackage hdb hpage
      have heq : items = served := hitems
      exact ⟨ids, hserved, heq ▸ hships⟩

end Server

end SkillHive
