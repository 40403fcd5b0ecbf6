import SkillHive.Deployment.Files

/-!
# The deployment engine

A deployment writes a snapshot beside its destination, moves the old target aside, moves the
snapshot in and removes the old target. A journal on disk names the phase that was reached, and
the recovery at the next start reads it together with what it finds at the three places.

The places of a transaction are its destination, its staging directory and its backup, all of
them in the skill root of one agent. A step that has returned is durable.
-/

namespace SkillHive

open Foundation

namespace Deployment

inductive DeploymentPhase where
  | intent
  | prepared
  | oldMoved
  | activated
  deriving DecidableEq, Repr

/-- `{:?}` -/
def DeploymentPhase.debug : DeploymentPhase → String
  | intent => "Intent"
  | prepared => "Prepared"
  | oldMoved => "OldMoved"
  | activated => "Activated"

structure DeploymentRequest where
  skillId : String
  agentProfileId : String
  snapshotHash : String
  /-- `skill_root.join(directory_name)` -/
  targetPath : String
  deriving DecidableEq, Repr

structure DeploymentResult where
  transactionId : String
  skillId : String
  agentProfileId : String
  targetPath : String
  snapshotHash : String
  replacedExisting : Bool
  deriving DecidableEq, Repr

structure DeploymentJournal where
  transactionId : String
  skillId : String
  agentProfileId : String
  snapshotHash : String
  targetPath : String
  replacedExisting : Bool
  phase : DeploymentPhase
  deriving DecidableEq, Repr

def DeploymentJournal.result (journal : DeploymentJournal) : DeploymentResult where
  transactionId := journal.transactionId
  skillId := journal.skillId
  agentProfileId := journal.agentProfileId
  targetPath := journal.targetPath
  snapshotHash := journal.snapshotHash
  replacedExisting := journal.replacedExisting

inductive DeploymentError where
  | io
  | snapshot
  | verification
  | journalSerialization
  | invalidJournal (message : String)
  | unrecoverableTransaction (transactionId reason : String)
  | unsupportedFileType
  deriving DecidableEq, Repr

structure RecoveryReport where
  recovered : ℕ
  rolledBack : ℕ
  catalogCommits : List DeploymentResult
  failed : List DeploymentError
  deriving DecidableEq, Repr

inductive RecoveryOutcome where
  | committed (result : DeploymentResult)
  | rolledBack
  deriving DecidableEq, Repr

inductive Place where
  | destination
  | staging
  | backup
  deriving DecidableEq, Repr

/-- The places of a transaction and its journal. -/
structure Disk (ε : Type) where
  destination : Option (Node ε)
  staging : Option (Node ε)
  backup : Option (Node ε)
  journal : Option (LogFile DeploymentJournal)
  deriving DecidableEq, Repr

variable {ε : Type} [DecidableEq ε]

namespace Disk

def get (disk : Disk ε) : Place → Option (Node ε)
  | .destination => disk.destination
  | .staging => disk.staging
  | .backup => disk.backup

def set (disk : Disk ε) (node : Option (Node ε)) : Place → Disk ε
  | .destination => { disk with destination := node }
  | .staging => { disk with staging := node }
  | .backup => { disk with backup := node }

end Disk

/-- What the blob store has of a snapshot: the files that its manifest names, and how many of
them are read before one is missing. -/
structure Blobs (ε : Type) where
  manifest : String → Option (List ε)
  served : String → ℕ

abbrev Deploy (ε α : Type) : Type := Procedure (Disk ε) (Point ε) DeploymentError α

/-! ## Steps on the disk -/

/-- `path_entry_exists` -/
def pathEntryExists (place : Place) : Deploy ε Bool := do
  let disk ← Procedure.look
  pure (disk.get place).isSome

/-- `remove_any` -/
def removeAny (place : Place) : Deploy ε Unit := do
  let disk ← Procedure.look
  Procedure.perform (removal (fun disk ↦ disk.get place) fun node disk ↦ disk.set node place)
  if (disk.get place).all Node.isRemovable then pure () else Procedure.fail .unsupportedFileType

/-- `if path_entry_exists(…)? { remove_any(…)? }` -/
def removeIfPresent (place : Place) : Deploy ε Unit := do
  if ← pathEntryExists place then removeAny place else pure ()

/-- `fs::rename` to a place where nothing is. -/
def rename (source target : Place) : Deploy ε Unit :=
  Procedure.perform (atomic fun disk ↦ (disk.set (disk.get source) target).set none source)

/-- `verify_materialized_snapshot` -/
def verifyMaterializedSnapshot (blobs : Blobs ε) (snapshotHash : String) (place : Place) :
    Deploy ε Unit := do
  let disk ← Procedure.look
  if (disk.get place).any fun node ↦ (blobs.manifest snapshotHash).map Node.snapshot = some node then pure ()
  else Procedure.fail .verification

/-- The files of the staging directory, one after the other. -/
def writeStaging (files : List ε) : Deploy ε Unit :=
  Procedure.perform
    { run := fun disk ↦ { disk with staging := some (.snapshot files) }
      cut := fun point disk ↦ (writing files point).map fun staging ↦ { disk with staging } }

/-- `materialize_snapshot` into the staging directory, which is removed when a file is missing -/
def materializeSnapshot (blobs : Blobs ε) (snapshotHash : String) : Deploy ε Unit :=
  match blobs.manifest snapshotHash with
  | none => Procedure.fail .snapshot
  | some files =>
    if files.length ≤ blobs.served snapshotHash then writeStaging files
    else do
      writeStaging (files.take (blobs.served snapshotHash))
      let _ ← (removeAny .staging).attempt
      Procedure.fail .snapshot

/-- `persist_journal` -/
def persistJournal (journal : DeploymentJournal) : Deploy ε Unit :=
  Procedure.perform
    (recording (fun disk ↦ disk.journal) (fun file disk ↦ { disk with journal := file }) journal)

/-- `remove_journal` -/
def removeJournal : Deploy ε Unit :=
  Procedure.perform (atomic fun disk ↦ { disk with journal := none })

/-- `read_latest_journal` -/
def readLatestJournal (file : LogFile DeploymentJournal) :
    Except DeploymentError DeploymentJournal :=
  match file.latest with
  | .ok journal => .ok journal
  | .error .noRecord => .error (.invalidJournal "contains no complete journal record")
  | .error .serialization => .error .journalSerialization
  | .error .decoding => .error .io

def unrecoverable (journal : DeploymentJournal) (reason : String) : DeploymentError :=
  .unrecoverableTransaction journal.transactionId reason

/-- `restore_backup` -/
def restoreBackup (journal : DeploymentJournal) : Deploy ε Unit := do
  let disk ← Procedure.look
  if disk.destination.isSome then
    Procedure.fail (unrecoverable journal "cannot restore backup while destination exists")
  else if disk.backup = none then Procedure.fail (unrecoverable journal "backup is missing")
  else rename .backup .destination

/-- `rollback_active_to_backup` -/
def rollbackActiveToBackup (journal : DeploymentJournal) : Deploy ε Unit := do
  removeIfPresent .destination
  restoreBackup journal

/-! ## A deployment -/

/-- The journal of a transaction in one of its phases. -/
def journalOf (transactionId : String) (request : DeploymentRequest) (replacedExisting : Bool)
    (phase : DeploymentPhase) : DeploymentJournal where
  transactionId := transactionId
  skillId := request.skillId
  agentProfileId := request.agentProfileId
  snapshotHash := request.snapshotHash
  targetPath := request.targetPath
  replacedExisting := replacedExisting
  phase := phase

/-- The steps up to the phase `Prepared`, which the engine undoes when one fails. -/
def prepareStaging (blobs : Blobs ε) (journal : DeploymentJournal) : Deploy ε Unit := do
  materializeSnapshot blobs journal.snapshotHash
  verifyMaterializedSnapshot blobs journal.snapshotHash .staging
  persistJournal { journal with phase := .prepared }

/-- What is left to do about a staging directory that could not be prepared. -/
def abandonStaging (error : DeploymentError) : Deploy ε DeploymentResult := do
  let _ ← (removeIfPresent .staging).attempt
  let _ ← removeJournal.attempt
  Procedure.fail error

/-- The old target moves aside. -/
def moveOldAside (journal : DeploymentJournal) : Deploy ε Unit := do
  rename .destination .backup
  persistJournal { journal with phase := .oldMoved }

/-- What is left to do about a target that is not the snapshot. -/
def undoActivation (journal : DeploymentJournal) (error : DeploymentError) :
    Deploy ε DeploymentResult := do
  let disk ← Procedure.look
  if journal.replacedExisting ∧ disk.backup.isSome then rollbackActiveToBackup journal
  else removeIfPresent .destination
  let _ ← removeJournal.attempt
  Procedure.fail error

/-- The last phase of a deployment, and of its recovery. -/
def commitActivation (journal : DeploymentJournal) : Deploy ε Unit := do
  persistJournal { journal with phase := .activated }
  removeIfPresent .backup

/-- The snapshot moves in, and the old target goes once the snapshot is verified. -/
def moveSnapshotIn (blobs : Blobs ε) (journal : DeploymentJournal) :
    Deploy ε DeploymentResult := do
  rename .staging .destination
  match ← (verifyMaterializedSnapshot blobs journal.snapshotHash .destination).attempt with
  | .error error => undoActivation journal error
  | .ok () =>
    commitActivation journal
    pure journal.result

/-- The steps after the phase `Prepared`. -/
def activate (blobs : Blobs ε) (journal : DeploymentJournal) : Deploy ε DeploymentResult := do
  if journal.replacedExisting then moveOldAside journal
  moveSnapshotIn blobs journal

/-- `deploy`, from its first journal record on. -/
def deploy (blobs : Blobs ε) (transactionId : String) (request : DeploymentRequest) :
    Deploy ε DeploymentResult := do
  let disk ← Procedure.look
  let journal := journalOf transactionId request disk.destination.isSome .intent
  persistJournal journal
  match ← (prepareStaging blobs journal).attempt with
  | .error error => abandonStaging error
  | .ok () => activate blobs journal

/-! ## The recovery -/

/-- `activate_verified_staging` -/
def activateVerifiedStaging (blobs : Blobs ε) (journal : DeploymentJournal) :
    Deploy ε RecoveryOutcome := do
  match ← (verifyMaterializedSnapshot blobs journal.snapshotHash .staging).attempt with
  | .error error =>
    let disk ← Procedure.look
    if disk.backup.isSome then
      removeIfPresent .staging
      restoreBackup journal
      removeJournal
      pure .rolledBack
    else Procedure.fail error
  | .ok () =>
    rename .staging .destination
    verifyMaterializedSnapshot blobs journal.snapshotHash .destination
    commitActivation journal
    pure (.committed journal.result)

/-- `verify_active_or_restore_backup` -/
def verifyActiveOrRestoreBackup (blobs : Blobs ε) (journal : DeploymentJournal) :
    Deploy ε RecoveryOutcome := do
  match ← (verifyMaterializedSnapshot blobs journal.snapshotHash .destination).attempt with
  | .ok () =>
    removeIfPresent .staging
    commitActivation journal
    pure (.committed journal.result)
  | .error error =>
    let disk ← Procedure.look
    if disk.backup.isSome then
      rollbackActiveToBackup journal
      removeJournal
      pure .rolledBack
    else Procedure.fail error

/-- `verify_active_without_backup` -/
def verifyActiveWithoutBackup (blobs : Blobs ε) (journal : DeploymentJournal) :
    Deploy ε RecoveryOutcome := do
  match ← (verifyMaterializedSnapshot blobs journal.snapshotHash .destination).attempt with
  | .ok () =>
    persistJournal { journal with phase := .activated }
    pure (.committed journal.result)
  | .error _ =>
    removeIfPresent .destination
    removeJournal
    pure .rolledBack

/-- The staging directory goes, and the journal after it. -/
def discardStaging : Deploy ε RecoveryOutcome := do
  removeIfPresent .staging
  removeJournal
  pure .rolledBack

/-- The backup goes back, and the journal away. -/
def takeBackupBack (journal : DeploymentJournal) : Deploy ε RecoveryOutcome := do
  restoreBackup journal
  removeJournal
  pure .rolledBack

/-- The places that the recovery has no rule for. -/
def noRule (journal : DeploymentJournal) (destination staging backup : Bool) : DeploymentError :=
  unrecoverable journal
    s!"destination={destination}, staging={staging}, backup={backup}, phase={journal.phase.debug}"

/-- `DeploymentPhase::Prepared`, when an old target was there. -/
def recoverReplacement (blobs : Blobs ε) (journal : DeploymentJournal) :
    Bool → Bool → Bool → Deploy ε RecoveryOutcome
  | true, true, false => discardStaging
  | false, true, true => activateVerifiedStaging blobs journal
  | true, false, true => verifyActiveOrRestoreBackup blobs journal
  | false, false, true => takeBackupBack journal
  | destination, staging, backup => Procedure.fail (noRule journal destination staging backup)

/-- `DeploymentPhase::Prepared`, when nothing was there. -/
def recoverInstall (blobs : Blobs ε) (journal : DeploymentJournal) :
    Bool → Bool → Bool → Deploy ε RecoveryOutcome
  | false, true, false => discardStaging
  | true, false, false => verifyActiveWithoutBackup blobs journal
  | destination, staging, backup => Procedure.fail (noRule journal destination staging backup)

/-- `DeploymentPhase::OldMoved` -/
def recoverOldMoved (blobs : Blobs ε) (journal : DeploymentJournal) :
    Bool → Bool → Bool → Deploy ε RecoveryOutcome
  | false, true, true => activateVerifiedStaging blobs journal
  | true, false, true => verifyActiveOrRestoreBackup blobs journal
  | false, false, true => takeBackupBack journal
  | destination, staging, backup => Procedure.fail (noRule journal destination staging backup)

/-- `recover_one`, once its journal is read. -/
def recoverPhase (blobs : Blobs ε) (journal : DeploymentJournal) (destination staging backup : Bool) :
    Deploy ε RecoveryOutcome :=
  match journal.phase with
  | .intent =>
    if backup then Procedure.fail (unrecoverable journal "backup exists while phase is intent")
    else discardStaging
  | .prepared =>
    if journal.replacedExisting then recoverReplacement blobs journal destination staging backup
    else recoverInstall blobs journal destination staging backup
  | .oldMoved => recoverOldMoved blobs journal destination staging backup
  | .activated =>
    if destination then
      if staging then
        Procedure.fail (unrecoverable journal "staging still exists after activation")
      else verifyActiveOrRestoreBackup blobs journal
    else if backup then takeBackupBack journal
    else
      Procedure.fail
        (unrecoverable journal "activated target is missing and no backup remains")

/-- `recover_one` -/
def recoverOne (blobs : Blobs ε) (file : LogFile DeploymentJournal) : Deploy ε RecoveryOutcome := do
  let journal ← Procedure.lift (readLatestJournal file)
  let disk ← Procedure.look
  recoverPhase blobs journal disk.destination.isSome disk.staging.isSome disk.backup.isSome

/-- The report on one journal. -/
def reportOf : Except DeploymentError RecoveryOutcome → RecoveryReport
  | .ok (.committed result) => ⟨1, 0, [result], []⟩
  | .ok .rolledBack => ⟨0, 1, [], []⟩
  | .error error => ⟨0, 0, [], [error]⟩

/-- `recover_incomplete` on a journal directory with at most this one journal. -/
def recoverIncomplete (blobs : Blobs ε) : Deploy ε RecoveryReport := do
  let disk ← Procedure.look
  match disk.journal with
  | none => pure ⟨0, 0, [], []⟩
  | some file =>
    let outcome ← (recoverOne blobs file).attempt
    pure (reportOf outcome)

end Deployment

end SkillHive
