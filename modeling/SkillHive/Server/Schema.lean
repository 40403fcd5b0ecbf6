import Mathlib.Order.Lattice
import SkillHive.Foundation.Table
import SkillHive.Foundation.Text
import SkillHive.Foundation.Transaction

/-!
# The server's database

The rows behind the synchronization endpoints: devices, skills and their versions, the
append-only change log, mutation receipts and the registry of stored blobs. Column types
carry what the schema promises of every value: a key fits `String(36)`, a revision is
positive, a package hash is a canonical `sha256` identifier.

Audit rows, timestamps that nothing reads and the identifiers of receipts are left out.
An identifier or a clock reading that a request draws is an argument of the request.
-/

namespace SkillHive

open Foundation

namespace Server

/-! ## Column types -/

/-- A value of a `String(36)` column. -/
structure RowId where
  text : String
  fits : text.length ≤ 36
  deriving DecidableEq, Repr

/-- `CHECK (revision >= 1)` -/
structure Revision where
  value : ℕ
  positive : 1 ≤ value
  deriving DecidableEq, Repr

namespace Revision

/-- The revision of a created skill. -/
def first : Revision := ⟨1, Nat.le_refl 1⟩

/-- `revision + 1` -/
def next (revision : Revision) : Revision := ⟨revision.value + 1, Nat.le_add_left 1 _⟩

@[simp]
theorem value_first : first.value = 1 := rfl

@[simp]
theorem value_next (revision : Revision) : revision.next.value = revision.value + 1 := rfl

end Revision

/-- One character of a lower-case hexadecimal digest. -/
def isLowerHex (c : Char) : Bool := ('0' ≤ c ∧ c ≤ '9') ∨ ('a' ≤ c ∧ c ≤ 'f')

/-- `^sha256:[0-9a-f]{64}$` -/
def isCanonicalHash (text : String) : Bool :=
  text.toList.take 7 = "sha256:".toList ∧ (text.toList.drop 7).length = 64 ∧
    (text.toList.drop 7).all isLowerHex

/-- A content address. -/
structure BlobHash where
  text : String
  canonical : isCanonicalHash text = true
  deriving DecidableEq, Repr

theorem RowId.eq_of_text_eq {id id' : RowId} (h : id.text = id'.text) : id = id' := by
  cases id
  cases id'
  cases h
  rfl

theorem BlobHash.eq_of_text_eq {hash hash' : BlobHash} (h : hash.text = hash'.text) :
    hash = hash' := by
  cases hash
  cases hash'
  cases h
  rfl

/-- The text as a content address, when it is one. -/
def BlobHash.ofText? (text : String) : Option BlobHash :=
  if h : isCanonicalHash text = true then some ⟨text, h⟩ else none

/-- The text as a key, when it fits the column. -/
def RowId.ofText? (text : String) : Option RowId :=
  if h : text.length ≤ 36 then some ⟨text, h⟩ else none

theorem BlobHash.ofText?_eq_some {text : String} {hash : BlobHash} :
    ofText? text = some hash ↔ hash.text = text := by
  unfold ofText?
  split
  case isTrue h =>
    constructor
    · rintro ⟨⟩
      rfl
    · rintro rfl
      rfl
  case isFalse h =>
    refine ⟨fun hsome ↦ (by cases hsome), ?_⟩
    rintro rfl
    exact absurd hash.canonical h

inductive SkillType where
  | privateSkill
  | groupSkill
  | globalSkill
  deriving DecidableEq, Repr

inductive SkillStatus where
  | draft
  | published
  | disabled
  | archived
  | deleted
  deriving DecidableEq, Repr

inductive VersionStatus where
  | draft
  | published
  deriving DecidableEq, Repr

inductive ChangeOperation where
  | upsert
  | delete
  deriving DecidableEq, Repr

/-! ## Errors -/

/-- `AppError`, the error that an endpoint reports under its own code and status. -/
structure AppError where
  code : String
  message : String
  statusCode : ℕ
  details : Option Json

/-- How handling a request can fail. Every failure but an `AppError` reaches the client
as a status of its own: 422 for a body that the schema refuses, 500 for the others. -/
inductive ServerError where
  | app (error : AppError)
  | requestValidation
  | integrity (constraint : String)
  | assertion
  | responseValidation
  | library (message : String)

/-- The HTTP status that the client sees. -/
def ServerError.statusCode : ServerError → ℕ
  | app error => error.statusCode
  | requestValidation => 422
  | integrity _ | assertion | responseValidation | library _ => 500

/-- `raise AppError(code, message, status_code, details)` -/
def appError (code message : String) (statusCode : ℕ) (details : Option Json := none) :
    ServerError :=
  .app ⟨code, message, statusCode, details⟩

/-! ## Rows -/

/-- A row of `skills`. -/
structure Skill where
  id : RowId
  name : String
  slug : String
  description : String
  skillType : SkillType
  ownerUserId : Option RowId
  groupId : Option RowId
  category : String
  tags : List String
  status : SkillStatus
  currentVersionId : Option RowId
  syncRevision : Revision
  currentPackageHash : Option BlobHash
  createdBy : RowId
  deletedAt : Option ℕ
  deriving DecidableEq, Repr

/-- A row of `skill_versions`. -/
structure SkillVersion where
  id : RowId
  skillId : RowId
  version : String
  revision : Revision
  content : Json
  manifest : Json
  packageManifestHash : Option BlobHash
  packageSizeBytes : Option ℕ
  dependencyConfig : Json
  changeLog : String
  tags : List String
  status : VersionStatus
  createdBy : RowId

/-- The payload of a change row. -/
structure ChangeMetadata where
  name : String
  slug : String
  description : String
  skillType : SkillType
  groupId : Option RowId
  category : String
  tags : List String
  status : SkillStatus
  deriving DecidableEq, Repr

/-- A row of `sync_change_log`; every row is about a skill. -/
structure SyncChangeLog where
  sequence : ℕ
  resourceId : RowId
  resourceRevision : Revision
  operation : ChangeOperation
  ownerUserId : Option RowId
  packageManifestHash : Option BlobHash
  metadataPayload : ChangeMetadata
  deriving DecidableEq, Repr

/-- A row of `devices`. -/
structure Device where
  id : RowId
  userId : RowId
  lastSeenAt : Option ℕ
  revokedAt : Option ℕ
  deriving DecidableEq, Repr

/-- A row of `skill_blob_objects`. -/
structure SkillBlobObject where
  hash : BlobHash
  sizeBytes : ℕ
  storageBackend : String
  deriving DecidableEq, Repr

/-! ## Receipts -/

inductive Operation where
  | create
  | update
  | delete
  deriving DecidableEq, Repr

/-- `_skill_metadata` -/
structure SkillMetadata where
  name : String
  slug : String
  description : String
  category : String
  tags : List String
  deriving DecidableEq, Repr

structure SyncMutationResult where
  remoteSkillId : RowId
  revision : Revision
  packageManifestHash : Option BlobHash
  deriving DecidableEq, Repr

structure SyncConflictHead where
  remoteSkillId : RowId
  revision : Revision
  packageManifestHash : Option BlobHash
  metadata : SkillMetadata
  deriving DecidableEq, Repr

inductive MutationStatus where
  | acked
  | conflict
  | permissionDenied
  | validationError
  deriving DecidableEq, Repr

/-- A stored response payload: the keys that `_acked_payload` or `_error_payload` sets. -/
structure ResponsePayload where
  mutationId : RowId
  status : MutationStatus
  result : Option SyncMutationResult
  conflict : Option SyncConflictHead
  errorCode : Option String
  message : Option String
  retryable : Option Bool
  deriving DecidableEq, Repr

/-- What a receipt is unique for: user, device and mutation. -/
structure ReceiptKey where
  userId : RowId
  deviceId : RowId
  mutationId : RowId
  deriving DecidableEq, Repr

/-- A row of `sync_mutation_receipts`. -/
structure SyncMutationReceipt where
  key : ReceiptKey
  operation : Operation
  resourceId : Option RowId
  resultCode : MutationStatus
  resultRevision : Option Revision
  responsePayload : ResponsePayload
  deriving DecidableEq, Repr

/-! ## The database -/

abbrev SkillTable := Table Skill Skill.id
abbrev VersionTable := Table SkillVersion SkillVersion.id
abbrev ChangeTable := Table SyncChangeLog SyncChangeLog.sequence
abbrev DeviceTable := Table Device Device.id
abbrev ReceiptTable := Table SyncMutationReceipt SyncMutationReceipt.key
abbrev BlobTable := Table SkillBlobObject SkillBlobObject.hash

structure Database where
  skills : SkillTable
  versions : VersionTable
  changes : ChangeTable
  devices : DeviceTable
  receipts : ReceiptTable
  blobs : BlobTable

namespace Database

/-- `session.get(Skill, id)` -/
def skill? (db : Database) (id : RowId) : Option Skill := db.skills.get? id

/-- `session.get(SkillVersion, id)` -/
def version? (db : Database) (id : RowId) : Option SkillVersion := db.versions.get? id

/-- `session.get(SkillBlobObject, hash)` -/
def blob? (db : Database) (hash : BlobHash) : Option SkillBlobObject := db.blobs.get? hash

/-- The skills, their versions and the change log are the same in both databases. -/
structure SameDomain (db db' : Database) : Prop where
  skills : db'.skills = db.skills
  versions : db'.versions = db.versions
  changes : db'.changes = db.changes

theorem SameDomain.refl (db : Database) : db.SameDomain db := ⟨rfl, rfl, rfl⟩

theorem SameDomain.trans {db db' db'' : Database} (h : db.SameDomain db')
    (h' : db'.SameDomain db'') : db.SameDomain db'' :=
  ⟨h'.skills.trans h.skills, h'.versions.trans h.versions, h'.changes.trans h.changes⟩

end Database

/-! ## Statements on skills, versions and the change log -/

/-- The unique constraint over a nullable scope and the slug: `NULL` scopes do not collide. -/
def SlugFree (skills : SkillTable) (scope : Skill → Option RowId) (row : Skill) : Prop :=
  ∀ other ∈ skills.rows, scope other = scope row → scope row ≠ none → other.slug ≠ row.slug

instance (skills : SkillTable) (scope : Skill → Option RowId) (row : Skill) :
    Decidable (SlugFree skills scope row) :=
  inferInstanceAs (Decidable (∀ other ∈ skills.rows, _))

/-- `INSERT INTO skills` -/
def insertSkill (db : Database) (row : Skill) : Except ServerError Database := do
  require (SlugFree db.skills Skill.ownerUserId row) (.integrity "uq_owner_skill_slug")
  require (SlugFree db.skills Skill.groupId row) (.integrity "uq_group_skill_slug")
  let skills ← okOr (db.skills.insert? row) (.integrity "skills.id")
  .ok { db with skills }

/-- `UPDATE skills` with the new value of a row. No column of a unique constraint is ever
assigned. -/
def saveSkill (db : Database) (row : Skill) : Database :=
  { db with skills := db.skills.replace row }

/-- `INSERT INTO skill_versions` -/
def insertVersion (db : Database) (row : SkillVersion) : Except ServerError Database := do
  require (∀ other ∈ db.versions.rows, other.skillId = row.skillId → other.version ≠ row.version)
    (.integrity "uq_skill_version")
  require (∀ other ∈ db.versions.rows, other.skillId = row.skillId →
      other.revision ≠ row.revision)
    (.integrity "uq_skill_version_revision")
  let versions ← okOr (db.versions.insert? row) (.integrity "skill_versions.id")
  .ok { db with versions }

/-- The sequence number that the database draws: one more than the largest in the log. -/
def nextSequence (changes : ChangeTable) : ℕ :=
  (changes.rows.map SyncChangeLog.sequence).foldr max 0 + 1

theorem le_foldr_max {n : ℕ} {ns : List ℕ} (h : n ∈ ns) : n ≤ ns.foldr max 0 := by
  induction ns with
  | nil => cases h
  | cons m ns ih =>
    rw [List.foldr_cons]
    rcases List.mem_cons.mp h with rfl | hmem
    · exact le_max_left _ _
    · exact (ih hmem).trans (le_max_right _ _)

theorem sequence_lt_nextSequence {changes : ChangeTable} {row : SyncChangeLog}
    (h : row ∈ changes) : row.sequence < nextSequence changes :=
  Nat.lt_succ_of_le (le_foldr_max (List.mem_map_of_mem h))

/-- `INSERT INTO sync_change_log`, under the next sequence number. -/
def appendChange (changes : ChangeTable) (row : SyncChangeLog) : ChangeTable :=
  changes.append { row with sequence := nextSequence changes } fun _ hr ↦
    (sequence_lt_nextSequence hr).ne

theorem mem_appendChange {changes : ChangeTable} {row added : SyncChangeLog} :
    row ∈ appendChange changes added ↔
      row ∈ changes ∨ row = { added with sequence := nextSequence changes } :=
  Table.mem_append

theorem nextSequence_lt_appendChange (changes : ChangeTable) (added : SyncChangeLog) :
    nextSequence changes < nextSequence (appendChange changes added) :=
  sequence_lt_nextSequence (mem_appendChange.mpr (.inr rfl))

theorem foldr_max_mem : ∀ {ns : List ℕ}, ns.foldr max 0 ≠ 0 → ns.foldr max 0 ∈ ns
  | [], h => absurd rfl h
  | n :: ns, h => by
    rw [List.foldr_cons] at h ⊢
    rcases le_total n (ns.foldr max 0) with hle | hle
    · rw [max_eq_right hle] at h ⊢
      exact List.mem_cons_of_mem n (foldr_max_mem h)
    · rw [max_eq_left hle]
      exact List.mem_cons_self

theorem one_le_nextSequence (changes : ChangeTable) : 1 ≤ nextSequence changes :=
  Nat.le_add_left 1 _

/-- The row below the next number is in the log, unless the log is empty. -/
theorem exists_newest {changes : ChangeTable} (h : nextSequence changes ≠ 1) :
    ∃ row ∈ changes, row.sequence + 1 = nextSequence changes := by
  have hmax : (changes.rows.map SyncChangeLog.sequence).foldr max 0 ≠ 0 :=
    fun hzero ↦ h (congrArg (· + 1) hzero)
  obtain ⟨row, hrow, hsequence⟩ := List.mem_map.mp (foldr_max_mem hmax)
  exact ⟨row, hrow, congrArg (· + 1) hsequence⟩

/-- A log all of whose rows lie below a number draws that number or one below it. -/
theorem nextSequence_le {changes : ChangeTable} {bound : ℕ} (hbound : 1 ≤ bound)
    (h : ∀ row ∈ changes, row.sequence < bound) : nextSequence changes ≤ bound := by
  by_cases hone : nextSequence changes = 1
  · exact hone.symm ▸ hbound
  · obtain ⟨row, hrow, hnext⟩ := exists_newest hone
    exact hnext ▸ h row hrow

theorem nextSequence_appendChange (changes : ChangeTable) (row : SyncChangeLog) :
    nextSequence (appendChange changes row) = nextSequence changes + 1 := by
  apply le_antisymm
  · refine nextSequence_le (Nat.le_add_left 1 _) fun other hother ↦ ?_
    rcases mem_appendChange.mp hother with hold | rfl
    · exact (sequence_lt_nextSequence hold).trans (Nat.lt_succ_self _)
    · exact Nat.lt_succ_self _
  · exact nextSequence_lt_appendChange changes row

/-! ## Keys of the examples -/

namespace Sample

def firstUser : RowId := ⟨"user-1", by decide⟩

def secondUser : RowId := ⟨"user-2", by decide⟩

def firstGroup : RowId := ⟨"group-1", by decide⟩

def secondSkill : RowId := ⟨"skill-2", by decide⟩

end Sample

end Server

end SkillHive
