import Mathlib.Algebra.BigOperators.Group.List.Lemmas
import Mathlib.Algebra.GroupWithZero.Nat
import Mathlib.Data.List.Sort
import Mathlib.Logic.Function.Basic
import SkillHive.LocalStore.Skills

/-!
# The cache budget

A pass over the blob cache counts the references that the catalog still holds, demotes the
mirrors that nothing on the machine needs, oldest first, and deletes the files whose last
counted reference goes with them. A second stage deletes the files that nothing refers to.
A snapshot whose manifest cannot be read adds nothing to the counts, and only the second
stage waits until there is none.
-/

namespace SkillHive

open Foundation LocalStore

namespace Cache

/-! ## What a pass works on -/

/-- A file of the blob cache, by the hash that its path spells. -/
structure BlobInventoryEntry where
  hash : String
  sizeBytes : ℕ
  deriving DecidableEq, Repr

abbrev BlobInventory := Table BlobInventoryEntry BlobInventoryEntry.hash

structure CacheSkillRecord where
  skillId : String
  remoteId : Option String
  workspacePath : String
  snapshotHash : String
  syncState : SkillSyncState
  pinned : Bool
  lastAccessedAt : String
  deriving DecidableEq, Repr

structure CacheEnforcementReport where
  budgetBytes : ℕ
  beforeBytes : ℕ
  afterBytes : ℕ
  evictedSkills : List String
  deletedBlobs : ℕ
  skippedSkills : List String
  diagnostics : List String
  deriving DecidableEq, Repr

inductive CacheManagerError where
  | io (error : String)
  | localStore (error : LocalStoreError)
  | sizeOverflow

/-- The two stages that delete files. -/
inductive Stage where
  | eviction
  | sweep
  deriving DecidableEq, Repr

/-- How the removal of a file that is there ends. -/
inductive Removal where
  | removed
  /-- The file stays. -/
  | refused (error : String)
  /-- The file is gone, but its directory could not be synced. -/
  | unsynced (error : String)
  deriving DecidableEq, Repr

/-- The machine that a pass runs on: its budget, what it reads and how its disk answers. -/
structure CacheRuntime where
  maxBytes : ℕ
  /-- `COALESCE(last_accessed_at, updated_at, created_at)` -/
  lastAccessedAt : String → String
  /-- The blobs that the manifest with this address names. -/
  manifestFiles : String → List String
  /-- The error of `read_manifest` in this pass. -/
  manifestFault : String → Option String
  /-- The error of the scan of the cache directory. -/
  scanFault : Option String
  pathMayExist : String → Bool
  /-- The recheck right before the claim. -/
  pathMayExistAtClaim : String → Bool
  claimFault : String → Option LocalStoreError
  removal : Stage → String → Removal
  /-- The order in which a hash map or a hash set is walked. -/
  visits : List String → List String
  visits_perm : ∀ hashes, (visits hashes).Perm hashes

/-- The state of a pass. -/
structure CachePass where
  store : LocalStore
  files : BlobInventory
  counts : String → Option ℕ
  report : CacheEnforcementReport

/-- What a pass leaves behind. -/
structure CacheOutcome where
  result : Except CacheManagerError CacheEnforcementReport
  store : LocalStore
  files : BlobInventory

def totalBytes (entries : List BlobInventoryEntry) : ℕ :=
  (entries.map BlobInventoryEntry.sizeBytes).sum

def CachePass.skip (pass : CachePass) (skillId : String) : CachePass :=
  { pass with
    report := { pass.report with skippedSkills := pass.report.skippedSkills ++ [skillId] } }

/-! ## Reads of the catalog -/

/-- `ORDER BY COALESCE(last_accessed_at, …) ASC, id ASC`, as the candidates are sorted again. -/
def accessOrder (left right : CacheSkillRecord) : Prop :=
  left.lastAccessedAt < right.lastAccessedAt ∨
    (left.lastAccessedAt = right.lastAccessedAt ∧ left.skillId ≤ right.skillId)

instance : DecidableRel accessOrder := fun left right ↦
  inferInstanceAs (Decidable (left.lastAccessedAt < right.lastAccessedAt ∨
    (left.lastAccessedAt = right.lastAccessedAt ∧ left.skillId ≤ right.skillId)))

/-- `SELECT DISTINCT payload_hash … WHERE state <> 'acked'` -/
def listUnackedMutationPayloadHashes (store : LocalStore) : List String :=
  ((store.mutations.rows.filter fun m ↦ m.state ≠ .acked).map LocalMutation.payloadHash).dedup

/-- The snapshots that are counted, each as often as it is: the current one of every skill
that is not `remote_only`, every deployed one and every payload that is not acknowledged. -/
def protectedSnapshots (store : LocalStore) : List String :=
  (store.skills.rows.filter fun row ↦ row.syncState ≠ .remoteOnly).map
      LocalSkill.currentBlobHash ++
    store.deployments.rows.map SkillDeployment.deployedBlobHash ++
    listUnackedMutationPayloadHashes store

namespace CacheRuntime

variable (rt : CacheRuntime)

def cacheRecord (row : LocalSkill) : CacheSkillRecord where
  skillId := row.id
  remoteId := row.remoteId
  workspacePath := row.workspacePath
  snapshotHash := row.currentBlobHash
  syncState := row.syncState
  pinned := row.pinned
  lastAccessedAt := rt.lastAccessedAt row.id

@[simp]
theorem cacheRecord_skillId (row : LocalSkill) : (rt.cacheRecord row).skillId = row.id := rfl

@[simp]
theorem cacheRecord_snapshotHash (row : LocalSkill) :
    (rt.cacheRecord row).snapshotHash = row.currentBlobHash := rfl

@[simp]
theorem cacheRecord_workspacePath (row : LocalSkill) :
    (rt.cacheRecord row).workspacePath = row.workspacePath := rfl

/-- `list_cache_skills` -/
def listCacheSkills (store : LocalStore) : List CacheSkillRecord :=
  (store.skills.rows.map rt.cacheRecord).insertionSort accessOrder

/-- The manifest and the files that it names. -/
def closure (snapshotHash : String) : List String :=
  (snapshotHash :: rt.manifestFiles snapshotHash).dedup

/-- `snapshot_closure` -/
def snapshotClosure (snapshotHash : String) : Except String (List String) :=
  match rt.manifestFault snapshotHash with
  | some error => .error error
  | none => .ok (rt.closure snapshotHash)

/-- The manifest of the snapshot can be read. -/
def readable (snapshotHash : String) : Bool := (rt.manifestFault snapshotHash).isNone

/-! ## The counts -/

/-- `*reference_counts.entry(hash).or_default() += refs` -/
def addReferences (refs : ℕ) (counts : String → Option ℕ) (hash : String) : String → Option ℕ :=
  Function.update counts hash (some ((counts hash).getD 0 + refs))

/-- `reference_counts`, from the counts of the snapshots. -/
def referenceCounts (snapshots : List String) : String → Option ℕ :=
  (rt.visits snapshots.dedup).foldl (fun counts snapshotHash ↦
    match rt.snapshotClosure snapshotHash with
    | .error _ => counts
    | .ok closure =>
      (rt.visits closure).foldl (addReferences (snapshots.count snapshotHash)) counts)
    fun _ ↦ none

/-- `unresolved_snapshots` -/
def unresolvedSnapshots (snapshots : List String) : List String :=
  (rt.visits snapshots.dedup).filter fun snapshotHash ↦ rt.readable snapshotHash = false

/-- What a pass reports about the manifests that it cannot read. -/
def unresolvedDiagnostics (snapshots : List String) : List String :=
  (rt.visits snapshots.dedup).filterMap fun snapshotHash ↦
    (rt.manifestFault snapshotHash).map fun error ↦
      s!"snapshot {snapshotHash} could not be resolved for cache accounting: {error}"

/-! ## Deleting files -/

/-- `remove_blob_file`; the path of an inventory entry is the one its hash spells. -/
def removeBlobFile (stage : Stage) (files : BlobInventory) (hash : String) :
    Except String Bool × BlobInventory :=
  match files.get? hash with
  | none => (.ok false, files)
  | some _ =>
    match rt.removal stage hash with
    | .removed => (.ok true, files.erase hash)
    | .refused error => (.error error, files)
    | .unsynced error => (.error error, files.erase hash)

/-- A removal and what the report says of it. -/
def deleteBlob (stage : Stage) (note : String → String) (pass : CachePass)
    (entry : BlobInventoryEntry) : CachePass :=
  match rt.removeBlobFile stage pass.files entry.hash with
  | (.ok true, files) =>
    { pass with
      files
      report := { pass.report with
        afterBytes := pass.report.afterBytes - entry.sizeBytes
        deletedBlobs := pass.report.deletedBlobs + 1 } }
  | (.ok false, files) => { pass with files }
  | (.error error, files) =>
    { pass with
      files
      report := { pass.report with diagnostics := pass.report.diagnostics ++ [note error] } }

/-! ## The eviction -/

/-- `is_evictable` -/
def isEvictable (deployedSkillIds : List String) (skill : CacheSkillRecord) : Bool :=
  skill.syncState = .synced ∧ skill.pinned = false ∧ skill.remoteId ≠ none ∧
    skill.skillId ∉ deployedSkillIds ∧ rt.pathMayExist skill.workspacePath = false

/-- `closures.get(&snapshot_hash)` -/
def closure? (snapshots : List String) (snapshotHash : String) : Option (List String) :=
  if snapshotHash ∈ snapshots then (rt.snapshotClosure snapshotHash).toOption else none

/-- One hash of the closure of an evicted skill: its count drops, and the file goes with the
last count. -/
def releaseBlob (inventory : BlobInventory) (skillId : String) (pass : CachePass)
    (hash : String) : CachePass :=
  match pass.counts hash with
  | none => pass
  | some count =>
    let released := { pass with counts := Function.update pass.counts hash (some (count - 1)) }
    if count - 1 ≠ 0 then released
    else
      match inventory.get? hash with
      | none => released
      | some entry =>
        rt.deleteBlob .eviction (fun error ↦
          s!"skill {skillId} was marked remote-only but cached blob {entry.hash} could not be deleted: {error}")
          released entry

/-- The first stage. A claim that fails ends the pass with its error. -/
def evictCandidates (start : LocalStore) (inventory : BlobInventory) :
    List CacheSkillRecord → CachePass → CachePass × Option CacheManagerError
  | [], pass => (pass, none)
  | skill :: rest, pass =>
    if pass.report.afterBytes ≤ rt.maxBytes then (pass, none)
    else if ¬ rt.isEvictable (start.deployments.rows.map SkillDeployment.skillId) skill then
      evictCandidates start inventory rest (pass.skip skill.skillId)
    else if skill.snapshotHash ∈ rt.unresolvedSnapshots (protectedSnapshots start) then
      evictCandidates start inventory rest (pass.skip skill.skillId)
    else
      match rt.closure? (protectedSnapshots start) skill.snapshotHash with
      | none => evictCandidates start inventory rest (pass.skip skill.skillId)
      | some closure =>
        if rt.pathMayExistAtClaim skill.workspacePath then
          evictCandidates start inventory rest (pass.skip skill.skillId)
        else
          match rt.claimFault skill.skillId with
          | some error => (pass, some (.localStore error))
          | none =>
            match pass.store.claimSkillForEviction skill.skillId skill.snapshotHash with
            | (_, false) => evictCandidates start inventory rest (pass.skip skill.skillId)
            | (store, true) =>
              evictCandidates start inventory rest
                ((rt.visits closure).foldl (rt.releaseBlob inventory skill.skillId)
                  { pass with
                    store
                    report := { pass.report with
                      evictedSkills := pass.report.evictedSkills ++ [skill.skillId] } })

/-! ## The orphans -/

/-- `referenced` -/
def isReferenced (counts : String → Option ℕ) (hash : String) : Bool := 0 < (counts hash).getD 0

/-- The second stage, over the entries of the inventory. -/
def sweepOrphans : List BlobInventoryEntry → CachePass → CachePass
  | [], pass => pass
  | entry :: rest, pass =>
    if pass.report.afterBytes ≤ rt.maxBytes then pass
    else if isReferenced pass.counts entry.hash then sweepOrphans rest pass
    else sweepOrphans rest (rt.deleteBlob .sweep (fun error ↦
      s!"orphan blob {entry.hash} could not be deleted: {error}") pass entry)

/-- `inventory_by_hash.values()` -/
def inventoryValues (inventory : BlobInventory) : List BlobInventoryEntry :=
  (rt.visits (inventory.rows.map BlobInventoryEntry.hash)).filterMap inventory.get?

/-! ## The pass -/

/-- The pass before the first candidate. -/
def beginPass (store : LocalStore) (inventory : BlobInventory) : CachePass where
  store := store
  files := inventory
  counts := rt.referenceCounts (protectedSnapshots store)
  report :=
    { budgetBytes := rt.maxBytes
      beforeBytes := totalBytes inventory.rows
      afterBytes := totalBytes inventory.rows
      evictedSkills := []
      deletedBlobs := 0
      skippedSkills := []
      diagnostics := rt.unresolvedDiagnostics (protectedSnapshots store) }

/-- The second stage runs when every counted manifest could be read. -/
def sweepStage (start : LocalStore) (inventory : BlobInventory) (pass : CachePass) : CachePass :=
  if rt.maxBytes < pass.report.afterBytes ∧
      rt.unresolvedSnapshots (protectedSnapshots start) = [] then
    rt.sweepOrphans (rt.inventoryValues inventory) pass
  else pass

/-- The last diagnostic. -/
def closingReport (report : CacheEnforcementReport) : CacheEnforcementReport :=
  if rt.maxBytes < report.afterBytes then
    { report with
      diagnostics := report.diagnostics ++
        [s!"cache remains above budget: {report.afterBytes} bytes used, {rt.maxBytes} byte budget; remaining content is protected or unresolved"] }
  else report

/-- `enforce_cache_budget` -/
def enforceCacheBudget (store : LocalStore) (inventory : BlobInventory) : CacheOutcome :=
  match rt.scanFault with
  | some error => ⟨.error (.io error), store, inventory⟩
  | none =>
    if 2 ^ 64 ≤ totalBytes inventory.rows then ⟨.error .sizeOverflow, store, inventory⟩
    else if totalBytes inventory.rows ≤ rt.maxBytes then
      ⟨.ok { (rt.beginPass store inventory).report with diagnostics := [] }, store, inventory⟩
    else
      match rt.evictCandidates store inventory (rt.listCacheSkills store)
          (rt.beginPass store inventory) with
      | (pass, some error) => ⟨.error error, pass.store, pass.files⟩
      | (pass, none) =>
        let swept := rt.sweepStage store inventory pass
        ⟨.ok (rt.closingReport swept.report), swept.store, swept.files⟩

end CacheRuntime

end Cache

end SkillHive
