import Mathlib.Data.List.Sort
import SkillHive.Foundation.Marking
import SkillHive.Server.Traffic

/-!
# Blob garbage collection

A pass marks the packages that the database refers to, then deletes what is registered, past
the grace period and not marked. A rooted manifest that cannot be read or parsed adds no file
to the marks, so its files are swept with everything else that is unmarked.
-/

namespace SkillHive

open Foundation

namespace Server

/-! ## Storage and timestamps -/

/-- An object of the storage backend. -/
structure StoredObject where
  hash : BlobHash
  bytes : ByteArray

abbrev ObjectTable := Table StoredObject StoredObject.hash

/-- The `created_at` columns, by primary key. -/
structure CreatedAt where
  blob : BlobHash → ℕ
  change : ℕ → ℕ
  receipt : ReceiptKey → ℕ

/-- The arguments of a pass; `unreadable` tells the objects whose read fails in it. -/
structure GcArgs where
  now : ℕ
  orphanGrace : ℕ
  changeRetention : ℕ
  receiptRetention : ℕ
  batchSize : ℕ
  legalRoots : List String
  unreadable : BlobHash → Bool

/-- `storage.open`, read to its end: no text but a canonical hash names an object. -/
def openObject? (objects : ObjectTable) (unreadable : BlobHash → Bool) (text : String) :
    Option ByteArray :=
  (BlobHash.ofText? text).bind fun hash ↦
    if unreadable hash then none else (objects.get? hash).map StoredObject.bytes

/-- The files of a stored manifest, when it can be read and is valid. -/
def readManifest? (rt : Runtime) (objects : ObjectTable) (unreadable : BlobHash → Bool)
    (text : String) : Option (List ManifestFile) :=
  (openObject? objects unreadable text).bind fun bytes ↦
    (validateSnapshotManifestBytes rt bytes).toOption

/-- `_manifest_closure` -/
def manifestClosure (rt : Runtime) (objects : ObjectTable) (unreadable : BlobHash → Bool)
    (text : String) : List String :=
  (readManifest? rt objects unreadable text).elim [] fun files ↦ files.map ManifestFile.blobHash

theorem manifestClosure_eq_nil {rt : Runtime} {objects : ObjectTable}
    {unreadable : BlobHash → Bool} {text : String}
    (h : text ∉ objects.rows.map fun object ↦ object.hash.text) :
    manifestClosure rt objects unreadable text = [] := by
  have hclosed : openObject? objects unreadable text = none := by
    rw [openObject?, Option.bind_eq_none_iff]
    intro hash hhash
    split
    · rfl
    · rw [Option.map_eq_none_iff, Table.get?_eq_none_iff]
      intro object hobject heq
      apply h
      rw [← BlobHash.ofText?_eq_some.mp hhash, ← heq]
      exact List.mem_map_of_mem hobject
  rw [manifestClosure, readManifest?, hclosed]
  rfl

/-- The manifests that a pass can expand, with the objects they name. -/
def packageGraph (rt : Runtime) (objects : ObjectTable) (unreadable : BlobHash → Bool) :
    SourcedGraph String where
  succ := manifestClosure rt objects unreadable
  sources := objects.rows.map fun object ↦ object.hash.text
  succ_eq_nil _ h := manifestClosure_eq_nil h

/-! ## Roots -/

/-- `_all_version_manifest_hashes` -/
def allVersionManifestHashes (db : Database) : List String :=
  (db.versions.rows.filterMap SkillVersion.packageManifestHash).map BlobHash.text

/-- `_current_package_hashes` -/
def currentPackageHashes (db : Database) : List String :=
  (db.skills.rows.filterMap Skill.currentPackageHash).map BlobHash.text

/-- `_change_log_manifest_hashes` -/
def changeLogManifestHashes (db : Database) (createdAt : CreatedAt) (args : GcArgs) :
    List String :=
  ((db.changes.rows.filter fun row ↦
      args.now ≤ createdAt.change row.sequence + args.changeRetention).filterMap
    SyncChangeLog.packageManifestHash).map BlobHash.text

/-- `_receipt_payload_manifest_hashes` -/
def receiptPayloadManifestHashes (db : Database) (createdAt : CreatedAt) (args : GcArgs) :
    List String :=
  ((db.receipts.rows.filter fun receipt ↦
      args.now ≤ createdAt.receipt receipt.key + args.receiptRetention).filterMap
    fun receipt ↦ receipt.responsePayload.result.bind SyncMutationResult.packageManifestHash).map
      BlobHash.text

/-- The roots of a pass. -/
def gcRoots (db : Database) (createdAt : CreatedAt) (args : GcArgs) : List String :=
  args.legalRoots ++ allVersionManifestHashes db ++ currentPackageHashes db ++
    changeLogManifestHashes db createdAt args ++ receiptPayloadManifestHashes db createdAt args

/-! ## The pass -/

/-- The mark phase. -/
def gcMarked (rt : Runtime) (objects : ObjectTable) (unreadable : BlobHash → Bool)
    (roots : List String) : List String :=
  (packageGraph rt objects unreadable).mark roots []

/-- The registered object is past the grace period. -/
def isPastGrace (createdAt : CreatedAt) (args : GcArgs) (hash : BlobHash) : Bool :=
  createdAt.blob hash + args.orphanGrace < args.now

/-- The rows that the sweep looks at: the first of the old ones, by hash. -/
def gcCandidates (db : Database) (createdAt : CreatedAt) (args : GcArgs) :
    List SkillBlobObject :=
  ((db.blobs.rows.filter fun row ↦ isPastGrace createdAt args row.hash).insertionSort
    fun row row' ↦ row.hash.text ≤ row'.hash.text).take args.batchSize

/-- What the sweep has done so far. -/
structure Sweep where
  blobs : BlobTable
  objects : ObjectTable
  deletedHashes : List BlobHash

/-- One round of the sweep: the bytes go first, then the row. -/
def sweepRow (marked : List String) (sweep : Sweep) (row : SkillBlobObject) : Sweep :=
  if row.hash.text ∈ marked then sweep
  else
    { blobs := sweep.blobs.erase row.hash
      objects := sweep.objects.erase row.hash
      deletedHashes := sweep.deletedHashes ++ [row.hash] }

structure GcReport where
  rootCount : ℕ
  markedCount : ℕ
  candidateCount : ℕ
  deletedCount : ℕ
  deletedHashes : List BlobHash

structure GcResult where
  db : Database
  objects : ObjectTable
  report : GcReport

/-- `run_blob_gc` -/
def runBlobGc (rt : Runtime) (db : Database) (createdAt : CreatedAt) (objects : ObjectTable)
    (args : GcArgs) : GcResult :=
  let roots := gcRoots db createdAt args
  let marked := gcMarked rt objects args.unreadable roots
  let candidates := gcCandidates db createdAt args
  let sweep := candidates.foldl (sweepRow marked) ⟨db.blobs, objects, []⟩
  { db := { db with blobs := sweep.blobs }
    objects := sweep.objects
    report :=
      { rootCount := roots.dedup.length
        markedCount := marked.length
        candidateCount := candidates.length
        deletedCount := sweep.deletedHashes.length
        deletedHashes := sweep.deletedHashes } }

/-! ## What a pass deletes -/

variable {rt : Runtime} {db : Database} {createdAt : CreatedAt} {objects : ObjectTable}
  {args : GcArgs}

/-- The sweep of the rows removes exactly the unmarked ones, from both tables. -/
theorem foldl_sweepRow (marked : List String) (rows : List SkillBlobObject) (sweep : Sweep)
    (hash : BlobHash) :
    ((rows.foldl (sweepRow marked) sweep).objects.get? hash =
      if hash ∈ rows.map SkillBlobObject.hash ∧ hash.text ∉ marked then none
      else sweep.objects.get? hash) ∧
    (rows.foldl (sweepRow marked) sweep).blobs.get? hash =
      if hash ∈ rows.map SkillBlobObject.hash ∧ hash.text ∉ marked then none
      else sweep.blobs.get? hash := by
  induction rows generalizing sweep with
  | nil => simp
  | cons row rows ih =>
    obtain ⟨hobjects, hblobs⟩ := ih (sweepRow marked sweep row)
    rw [List.foldl_cons, hobjects, hblobs]
    by_cases hmarked : row.hash.text ∈ marked
    · have hne : hash.text ∉ marked → hash ≠ row.hash := by
        rintro hnew rfl
        exact hnew hmarked
      have hiff : (hash ∈ (row :: rows).map SkillBlobObject.hash ∧ hash.text ∉ marked) ↔
          (hash ∈ rows.map SkillBlobObject.hash ∧ hash.text ∉ marked) := by
        simp only [List.map_cons, List.mem_cons]
        grind
      simp only [sweepRow, if_pos hmarked, hiff, and_self]
    · by_cases heq : hash = row.hash
      · subst heq
        simp [sweepRow, hmarked, Table.get?_erase]
      · simp [sweepRow, hmarked, Table.get?_erase, heq]

/-- A pass deletes the hash. -/
def Swept (rt : Runtime) (db : Database) (createdAt : CreatedAt) (objects : ObjectTable)
    (args : GcArgs) (hash : BlobHash) : Prop :=
  hash ∈ (gcCandidates db createdAt args).map SkillBlobObject.hash ∧
    ¬ (packageGraph rt objects args.unreadable).Reached (gcRoots db createdAt args) hash.text

theorem mem_gcMarked {unreadable : BlobHash → Bool} {roots : List String} {text : String} :
    text ∈ gcMarked rt objects unreadable roots ↔
      (packageGraph rt objects unreadable).Reached roots text :=
  SourcedGraph.mem_mark_iff

theorem swept_iff {hash : BlobHash} : Swept rt db createdAt objects args hash ↔
    hash ∈ (gcCandidates db createdAt args).map SkillBlobObject.hash ∧
      hash.text ∉ gcMarked rt objects args.unreadable (gcRoots db createdAt args) :=
  and_congr_right fun _ ↦ not_congr mem_gcMarked.symm

theorem runBlobGc_swept {hash : BlobHash} (h : Swept rt db createdAt objects args hash) :
    (runBlobGc rt db createdAt objects args).objects.get? hash = none ∧
      (runBlobGc rt db createdAt objects args).db.blob? hash = none := by
  have hsweep := foldl_sweepRow
    (gcMarked rt objects args.unreadable (gcRoots db createdAt args))
    (gcCandidates db createdAt args) ⟨db.blobs, objects, []⟩ hash
  rw [if_pos (swept_iff.mp h), if_pos (swept_iff.mp h)] at hsweep
  exact hsweep

theorem runBlobGc_kept {hash : BlobHash} (h : ¬ Swept rt db createdAt objects args hash) :
    (runBlobGc rt db createdAt objects args).objects.get? hash = objects.get? hash ∧
      (runBlobGc rt db createdAt objects args).db.blob? hash = db.blob? hash := by
  have hsweep := foldl_sweepRow
    (gcMarked rt objects args.unreadable (gcRoots db createdAt args))
    (gcCandidates db createdAt args) ⟨db.blobs, objects, []⟩ hash
  rw [if_neg (mt swept_iff.mpr h), if_neg (mt swept_iff.mpr h)] at hsweep
  exact hsweep

/-! ## What a pass must keep -/

/-- The files that a manifest names, by the bytes that are stored. -/
def storedManifest? (rt : Runtime) (objects : ObjectTable) (text : String) :
    Option (List ManifestFile) :=
  readManifest? rt objects (fun _ ↦ false) text

/-- The object lies in the closure of the root: it is the manifest or a file of it. -/
def InClosure (rt : Runtime) (objects : ObjectTable) (root text : String) : Prop :=
  text = root ∨ ∃ files, storedManifest? rt objects root = some files ∧
    text ∈ files.map ManifestFile.blobHash

/-- The pass cannot tell the closure of the root. -/
def Undetermined (rt : Runtime) (objects : ObjectTable) (args : GcArgs) (root : String) : Prop :=
  readManifest? rt objects args.unreadable root = none

/-- A manifest that is read is the stored one. -/
theorem storedManifest?_of_read {unreadable : BlobHash → Bool} {text : String}
    {files : List ManifestFile} (h : readManifest? rt objects unreadable text = some files) :
    storedManifest? rt objects text = some files := by
  obtain ⟨bytes, hopen, hvalid⟩ := Option.bind_eq_some_iff.mp h
  apply Option.bind_eq_some_iff.mpr
  refine ⟨bytes, ?_, hvalid⟩
  obtain ⟨hash, hhash, hbytes⟩ := Option.bind_eq_some_iff.mp hopen
  split at hbytes
  · cases hbytes
  · exact Option.bind_eq_some_iff.mpr ⟨hash, hhash, hbytes⟩

/-- What a manifest that cannot be determined might contain: at least what is stored. -/
structure PossibleContents (rt : Runtime) (objects : ObjectTable) where
  names : String → String → Prop
  stored : ∀ root text, InClosure rt objects root text → names root text

/-- With nothing known of a manifest, it might contain every object. -/
instance : Inhabited (PossibleContents rt objects) := ⟨fun _ _ ↦ True, fun _ _ _ ↦ trivial⟩

/-- The pass leaves the bytes and the row of the object as they are. -/
def GcKeeps (rt : Runtime) (db : Database) (createdAt : CreatedAt) (objects : ObjectTable)
    (args : GcArgs) (hash : BlobHash) : Prop :=
  (runBlobGc rt db createdAt objects args).objects.get? hash = objects.get? hash ∧
    (runBlobGc rt db createdAt objects args).db.blob? hash = db.blob? hash

/-- What a pass owes the closures of its roots. -/
structure GcKeepsClosures (rt : Runtime) (db : Database) (createdAt : CreatedAt)
    (objects : ObjectTable) (args : GcArgs) (possible : PossibleContents rt objects) : Prop where
  /-- Nothing in the closure of a root is deleted. -/
  closures : ∀ root ∈ gcRoots db createdAt args, ∀ hash : BlobHash,
    InClosure rt objects root hash.text → GcKeeps rt db createdAt objects args hash
  /-- Nothing that an undetermined closure might contain is deleted. -/
  undetermined : ∀ root ∈ gcRoots db createdAt args, Undetermined rt objects args root →
    ∀ hash : BlobHash, possible.names root hash.text → GcKeeps rt db createdAt objects args hash

/-- An object in the closure of a root whose manifest was read is reached. -/
theorem reached_of_inClosure {roots : List String} {root text : String} (hroot : root ∈ roots)
    (hread : ¬ Undetermined rt objects args root) (h : InClosure rt objects root text) :
    (packageGraph rt objects args.unreadable).Reached roots text := by
  rcases h with rfl | ⟨files, hstored, htext⟩
  · exact .root hroot
  · obtain ⟨files', hfiles'⟩ := Option.ne_none_iff_exists'.mp hread
    rw [storedManifest?_of_read hfiles', Option.some.injEq] at hstored
    have hsucc : text ∈ manifestClosure rt objects args.unreadable root := by
      rw [manifestClosure, hfiles', hstored, Option.elim_some]
      exact htext
    exact .step (.root hroot) hsucc

/-- A pass that deletes a registered object does not keep it. -/
theorem not_gcKeeps_of_swept {row : SkillBlobObject} (hrow : row ∈ gcCandidates db createdAt args)
    (h : Swept rt db createdAt objects args row.hash) :
    ¬ GcKeeps rt db createdAt objects args row.hash := by
  rintro ⟨-, hkept⟩
  have hregistered : row ∈ db.blobs := by
    have hmem := List.mem_of_mem_take hrow
    rw [List.mem_insertionSort] at hmem
    exact (List.mem_filter.mp hmem).1
  rw [(runBlobGc_swept h).2, Database.blob?, Table.get?_of_mem hregistered] at hkept
  cases hkept

/-- A pass keeps the closures of its roots exactly when every old registered object that it
looks at is reached from the roots over the manifests that it can read, or is nothing that a
rooted manifest which it cannot read or parse might contain. -/
theorem runBlobGc_keepsClosures_iff (rt : Runtime) (db : Database) (createdAt : CreatedAt)
    (objects : ObjectTable) (args : GcArgs) (possible : PossibleContents rt objects) :
    GcKeepsClosures rt db createdAt objects args possible ↔
      ∀ row ∈ gcCandidates db createdAt args,
        (packageGraph rt objects args.unreadable).Reached (gcRoots db createdAt args)
          row.hash.text ∨
        ∀ root ∈ gcRoots db createdAt args, Undetermined rt objects args root →
          ¬ possible.names root row.hash.text := by
  constructor
  · intro h row hrow
    by_contra hfails
    push Not at hfails
    obtain ⟨hunreached, root, hroot, hundetermined, hnames⟩ := hfails
    have hswept : Swept rt db createdAt objects args row.hash :=
      ⟨List.mem_map_of_mem hrow, hunreached⟩
    exact not_gcKeeps_of_swept hrow hswept (h.undetermined root hroot hundetermined _ hnames)
  · intro h
    have hundetermined : ∀ root ∈ gcRoots db createdAt args, Undetermined rt objects args root →
        ∀ hash : BlobHash, possible.names root hash.text →
          GcKeeps rt db createdAt objects args hash := by
      intro root hroot hnone hash hnames
      apply runBlobGc_kept
      rintro ⟨hcandidate, hunreached⟩
      obtain ⟨row, hrow, rfl⟩ := List.mem_map.mp hcandidate
      rcases h row hrow with hreached | hexcluded
      · exact hunreached hreached
      · exact hexcluded root hroot hnone hnames
    refine ⟨fun root hroot hash hclosure ↦ ?_, hundetermined⟩
    by_cases hread : Undetermined rt objects args root
    · exact hundetermined root hroot hread hash (possible.stored root _ hclosure)
    · apply runBlobGc_kept
      rintro ⟨-, hunreached⟩
      exact hunreached (reached_of_inClosure hroot hread hclosure)

/-! ## A manifest that fails to be read once -/

namespace Sample

/-- The storage backend with the package. -/
def storedPackage : ObjectTable :=
  ⟨[⟨fileHash, file⟩, ⟨packageHash, manifestBytes⟩], by decide⟩

/-- The database after the device created the skill. -/
def committed : Database := create.next runtime database

/-- Everything is as old as the epoch. -/
def epoch : CreatedAt := ⟨fun _ ↦ 0, fun _ ↦ 0, fun _ ↦ 0⟩

/-- A pass during which the manifest of the package cannot be read. -/
def blindPass : GcArgs where
  now := 100
  orphanGrace := 10
  changeRetention := 1000
  receiptRetention := 1000
  batchSize := 1000
  legalRoots := []
  unreadable hash := hash = packageHash

end Sample

open Sample in
/-- The pass deletes the only file of the current version of the skill, whatever the unread
manifest might contain. -/
theorem runBlobGc_sweeps_liveFile :
    (committed.skill? skillId).bind Skill.currentPackageHash = some packageHash ∧
      InClosure runtime storedPackage packageHash.text fileHash.text ∧
      (storedPackage.get? fileHash).isSome ∧
      (runBlobGc runtime committed epoch storedPackage blindPass).objects.get? fileHash = none ∧
      ∀ possible, ¬ GcKeepsClosures runtime committed epoch storedPackage blindPass possible := by
  obtain ⟨hcurrent, hroots, hcandidate⟩ :
      (committed.skill? skillId).bind Skill.currentPackageHash = some packageHash ∧
        gcRoots committed epoch blindPass = List.replicate 4 packageHash.text ∧
        fileHash ∈ (gcCandidates committed epoch blindPass).map SkillBlobObject.hash := by
    decide +kernel
  have hroot : packageHash.text ∈ gcRoots committed epoch blindPass := by
    rw [hroots]
    exact List.mem_cons_self
  have hunreached : ¬ (packageGraph runtime storedPackage blindPass.unreadable).Reached
      (gcRoots committed epoch blindPass) fileHash.text := by
    intro hreached
    have honly : fileHash.text = packageHash.text := by
      apply hreached.of_closed (P := fun text ↦ text = packageHash.text)
      · rw [hroots]
        exact fun text ↦ List.eq_of_mem_replicate
      · rintro root text rfl htext
        have hnone : (packageGraph runtime storedPackage blindPass.unreadable).succ
            packageHash.text = [] := by decide +kernel
        rw [hnone] at htext
        cases htext
    exact absurd honly (by decide)
  have hclosure : InClosure runtime storedPackage packageHash.text fileHash.text := by
    have hfiles : (storedManifest? runtime storedPackage packageHash.text).map
        (List.map ManifestFile.blobHash) = some [fileHash.text] := by decide +kernel
    obtain ⟨files, hstored, hmap⟩ := Option.map_eq_some_iff.mp hfiles
    exact .inr ⟨files, hstored, hmap ▸ List.mem_singleton_self _⟩
  have hstored : (storedPackage.get? fileHash).isSome := by decide +kernel
  have hdeleted := (runBlobGc_swept ⟨hcandidate, hunreached⟩).1
  refine ⟨hcurrent, hclosure, hstored, hdeleted, fun possible hkeeps ↦ ?_⟩
  have hkept := (hkeeps.closures _ hroot _ hclosure).1
  rw [hdeleted] at hkept
  rw [← hkept] at hstored
  cases hstored

end Server

end SkillHive
