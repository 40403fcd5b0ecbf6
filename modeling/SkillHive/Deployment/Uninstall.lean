import SkillHive.Deployment.Files

/-!
# Uninstalls

An uninstall moves its target into quarantine, removes the row of the catalog and then the
quarantine. The target, the quarantine, the journal and the catalog change one at a time. After a
crash the reconciliation reads the journal, and the catalog says whether to go back or on.
-/

namespace SkillHive

open Foundation Deployment

namespace Uninstall

inductive UninstallPhase where
  | intent
  | moved
  deriving DecidableEq, Repr

structure UninstallRequest where
  skillId : String
  agentProfileId : String
  skillRoot : String
  targetPath : String
  deriving DecidableEq, Repr

structure UninstallResult where
  transactionId : Option String
  skillId : String
  agentProfileId : String
  targetPath : String
  quarantinedPath : Option String
  targetExisted : Bool
  deriving DecidableEq, Repr

structure UninstallJournal where
  transactionId : String
  skillId : String
  agentProfileId : String
  skillRoot : String
  targetPath : String
  quarantinedPath : String
  phase : UninstallPhase
  deriving DecidableEq, Repr

def UninstallJournal.result (journal : UninstallJournal) : UninstallResult where
  transactionId := some journal.transactionId
  skillId := journal.skillId
  agentProfileId := journal.agentProfileId
  targetPath := journal.targetPath
  quarantinedPath := some journal.quarantinedPath
  targetExisted := true

inductive UninstallError where
  | io
  | journalSerialization
  | invalidJournal (message : String)
  | ambiguousFilesystemState (transactionId : String)
  | unrecoverableTransaction (transactionId : String)
  | catalogCommitNotReflected (transactionId : String)
  deriving DecidableEq, Repr

structure UninstallRecoveryReport where
  pending : List UninstallResult
  cleanedIntents : ℕ
  failed : List UninstallError
  deriving DecidableEq, Repr

/-- What a line of the startup report tells about. -/
inductive ReconciliationFailure where
  | journal (error : UninstallError)
  | rollback (transactionId : String) (error : UninstallError)
  | finalize (transactionId : String) (error : UninstallError)
  deriving DecidableEq, Repr

structure UninstallStartupReport where
  discovered : ℕ
  rolledBack : ℕ
  finalized : ℕ
  cleanedIntents : ℕ
  failed : List ReconciliationFailure
  deriving DecidableEq, Repr

/-- The places of a transaction, its journal, and whether the catalog has the row of the skill and
the agent. -/
structure Machine (ε : Type) where
  target : Option (Node ε)
  quarantine : Option (Node ε)
  journal : Option (LogFile UninstallJournal)
  installed : Bool
  deriving DecidableEq, Repr

abbrev Engine (ε α : Type) : Type := Procedure (Machine ε) (Point ε) UninstallError α

section Engine

variable {ε : Type}

/-! ## Steps on the disk -/

/-- `persist_journal` -/
def persistJournal (journal : UninstallJournal) : Engine ε Unit :=
  Procedure.perform
    (recording (fun machine ↦ machine.journal) (fun file machine ↦ { machine with journal := file })
      journal)

/-- `remove_journal` -/
def removeJournal : Engine ε Unit :=
  Procedure.perform (atomic fun machine ↦ { machine with journal := none })

/-- `fs::rename(target_path, quarantined_path)` -/
def moveToQuarantine : Engine ε Unit :=
  Procedure.perform
    (atomic fun machine ↦ { machine with target := none, quarantine := machine.target })

/-- `fs::rename(quarantined_path, target_path)` -/
def moveBack : Engine ε Unit :=
  Procedure.perform
    (atomic fun machine ↦ { machine with target := machine.quarantine, quarantine := none })

/-- The error of `remove_any` for what it does not support. -/
def unsupportedAt (path : String) : Node ε → Option UninstallError
  | .file _ => none
  | .dir entries => (entries.findSome? DirEntry.special?).map fun entry ↦
      .invalidJournal s!"unsupported file type at {path}/{entry}"
  | .special => some (.invalidJournal s!"unsupported quarantined file type at {path}")

theorem unsupportedAt_eq_none (path : String) {node : Node ε} :
    unsupportedAt path node = none ↔ node.isRemovable = true := by
  cases node with
  | file content => exact iff_of_true rfl rfl
  | special => exact iff_of_false nofun nofun
  | dir entries =>
    rw [unsupportedAt, Option.map_eq_none_iff, List.findSome?_eq_none_iff, Node.isRemovable,
      List.all_eq_true]
    refine forall₂_congr fun entry _ ↦ ?_
    cases entry <;> simp [DirEntry.special?, DirEntry.isFile]

/-- `remove_any(quarantined_path)` -/
def removeQuarantine [DecidableEq ε] (quarantinedPath : String) : Engine ε Unit := do
  let machine ← Procedure.look
  Procedure.perform
    (removal (fun machine ↦ machine.quarantine) fun node machine ↦
      { machine with quarantine := node })
  match machine.quarantine.bind (unsupportedAt quarantinedPath) with
  | none => pure ()
  | some error => Procedure.fail error

/-- `read_latest_journal` of a file -/
def readLatestJournal (file : LogFile UninstallJournal) : Except UninstallError UninstallJournal :=
  match file.latest with
  | .ok journal => .ok journal
  | .error .noRecord => .error (.invalidJournal "contains no complete journal record")
  | .error .serialization => .error .journalSerialization
  | .error .decoding => .error .io

/-- `read_latest_journal` of the path of a transaction -/
def readJournal : Engine ε UninstallJournal := do
  let machine ← Procedure.look
  match machine.journal with
  | none => Procedure.fail .io
  | some file => Procedure.lift (readLatestJournal file)

/-! ## The engine -/

/-- `RESERVED_PREFIX` -/
def reservedPrefix : String := ".skillhive-remove-"

/-- The journal of a transaction in one of its phases. -/
def journalOf (transactionId : String) (request : UninstallRequest) (phase : UninstallPhase) :
    UninstallJournal where
  transactionId := transactionId
  skillId := request.skillId
  agentProfileId := request.agentProfileId
  skillRoot := request.skillRoot
  targetPath := request.targetPath
  quarantinedPath := request.skillRoot ++ "/" ++ reservedPrefix ++ transactionId
  phase := phase

/-- `begin`, which finds no target and does nothing or moves it aside -/
def begin (transactionId : String) (request : UninstallRequest) : Engine ε UninstallResult := do
  let machine ← Procedure.look
  if machine.target.isNone then
    pure
      { transactionId := none
        skillId := request.skillId
        agentProfileId := request.agentProfileId
        targetPath := request.targetPath
        quarantinedPath := none
        targetExisted := false }
  else if machine.quarantine.isSome then Procedure.fail (.ambiguousFilesystemState transactionId)
  else do
    persistJournal (journalOf transactionId request .intent)
    moveToQuarantine
    persistJournal (journalOf transactionId request .moved)
    pure (journalOf transactionId request .moved).result

/-- `finalize` -/
def finalize [DecidableEq ε] (transactionId : String) : Engine ε Unit := do
  let journal ← readJournal
  let machine ← Procedure.look
  if journal.transactionId ≠ transactionId then
    Procedure.fail (.invalidJournal "transaction id does not match journal filename")
  else if machine.target.isSome ∧ machine.quarantine.isSome then
    Procedure.fail (.ambiguousFilesystemState transactionId)
  else if machine.target.isSome then Procedure.fail (.catalogCommitNotReflected transactionId)
  else if machine.quarantine.isSome then do
    removeQuarantine journal.quarantinedPath
    removeJournal
  else removeJournal

/-- `rollback` -/
def rollback (transactionId : String) : Engine ε Unit := do
  let _ ← readJournal
  let machine ← Procedure.look
  match machine.target.isSome, machine.quarantine.isSome with
  | false, true => do
    moveBack
    removeJournal
  | true, false => removeJournal
  | true, true => Procedure.fail (.ambiguousFilesystemState transactionId)
  | false, false => Procedure.fail (.unrecoverableTransaction transactionId)

/-- The rules of `recover_pending` for what there is of the target and of the quarantine. -/
def classify (journal : UninstallJournal) :
    Bool → Bool → UninstallPhase → Engine ε (Option UninstallResult)
  | true, false, .intent => do
    removeJournal
    pure none
  | false, true, _ => pure (some journal.result)
  | false, false, .moved => pure (some journal.result)
  | _, _, _ => Procedure.fail (.ambiguousFilesystemState journal.transactionId)

/-- What `recover_pending` finds about one journal. -/
def recoverJournal (file : LogFile UninstallJournal) : Engine ε (Option UninstallResult) := do
  let journal ← Procedure.lift (readLatestJournal file)
  let machine ← Procedure.look
  classify journal machine.target.isSome machine.quarantine.isSome journal.phase

/-- The part of `recover_pending` that is told in its report. -/
def pendingOf : Except UninstallError (Option UninstallResult) → UninstallRecoveryReport
  | .ok (some item) => ⟨[item], 0, []⟩
  | .ok none => ⟨[], 1, []⟩
  | .error error => ⟨[], 0, [error]⟩

/-- `recover_pending` on a journal directory with at most this one journal. -/
def recoverPending : Engine ε UninstallRecoveryReport := do
  let machine ← Procedure.look
  match machine.journal with
  | none => pure ⟨[], 0, []⟩
  | some file =>
    let outcome ← (recoverJournal file).attempt
    pure (pendingOf outcome)

/-! ## The commands -/

/-- One pending transaction: the catalog decides between rollback and finalize. -/
def reconcilePending [DecidableEq ε] (report : UninstallStartupReport) (pending : UninstallResult) :
    Engine ε UninstallStartupReport :=
  match pending.transactionId with
  | none => pure report
  | some transactionId => do
    let machine ← Procedure.look
    if machine.installed then
      match ← (rollback transactionId).attempt with
      | .ok () => pure { report with rolledBack := report.rolledBack + 1 }
      | .error error =>
        pure { report with failed := report.failed ++ [.rollback transactionId error] }
    else
      match ← (finalize transactionId).attempt with
      | .ok () => pure { report with finalized := report.finalized + 1 }
      | .error error =>
        pure { report with failed := report.failed ++ [.finalize transactionId error] }

/-- `reconcile_uninstall_recovery` -/
def reconcileUninstallRecovery [DecidableEq ε] : Engine ε UninstallStartupReport := do
  let discovered ← recoverPending
  discovered.pending.foldlM reconcilePending
    { discovered := discovered.pending.length
      rolledBack := 0
      finalized := 0
      cleanedIntents := discovered.cleanedIntents
      failed := discovered.failed.map .journal }

inductive CommandError where
  | deploymentNotFound
  | filesystem (error : UninstallError)
  | catalogRemovalFailed (recovery : Option UninstallError)
  deriving DecidableEq, Repr

structure UninstallSkillFromAgentResult where
  skillId : String
  agentProfileId : String
  targetExisted : Bool
  recoveryPending : Bool
  deriving DecidableEq, Repr

/-- `remove_deployment_catalog`, whose transaction commits or fails -/
def removeDeploymentCatalog (commits : Bool) : Procedure (Machine ε) (Point ε) Unit Unit :=
  if commits then Procedure.perform (atomic fun machine ↦ { machine with installed := false })
  else Procedure.fail ()

/-- The removal of the quarantine at the end of the command, and whether it is left to do. -/
def finalizeCommand [DecidableEq ε] (transactionId : Option String) :
    Procedure (Machine ε) (Point ε) CommandError Bool :=
  match transactionId with
  | none => pure false
  | some transactionId => do
    match ← (finalize transactionId).attempt with
    | .ok () => pure false
    | .error _ => pure true

/-- The error of a reconciliation, if it has one. -/
def failureOf {α : Type} : Except UninstallError α → Option UninstallError
  | .ok _ => none
  | .error error => some error

/-- The command after the target is in quarantine, or was found missing. -/
def removeInstallation [DecidableEq ε] (commits : Bool) (request : UninstallRequest)
    (filesystem : UninstallResult) :
    Procedure (Machine ε) (Point ε) CommandError UninstallSkillFromAgentResult := do
  match ← (removeDeploymentCatalog commits).attempt with
  | .error () =>
    let recovery ← reconcileUninstallRecovery.attempt
    Procedure.fail (.catalogRemovalFailed (failureOf recovery))
  | .ok () =>
    let recoveryPending ← finalizeCommand filesystem.transactionId
    pure
      { skillId := request.skillId
        agentProfileId := request.agentProfileId
        targetExisted := filesystem.targetExisted
        recoveryPending }

/-- `uninstall_skill_from_agent` -/
def uninstallSkillFromAgent [DecidableEq ε] (commits : Bool) (transactionId : String)
    (request : UninstallRequest) :
    Procedure (Machine ε) (Point ε) CommandError UninstallSkillFromAgentResult := do
  let machine ← Procedure.look
  if machine.installed then
    match ← (begin transactionId request).attempt with
    | .error error => Procedure.fail (.filesystem error)
    | .ok filesystem => removeInstallation commits request filesystem
  else Procedure.fail .deploymentNotFound

end Engine

end Uninstall

end SkillHive
