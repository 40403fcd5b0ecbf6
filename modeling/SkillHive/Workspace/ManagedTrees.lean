import SkillHive.Deployment.Engine
import SkillHive.Foundation.Faults
import SkillHive.Foundation.Text
import SkillHive.Foundation.TransitionSystem

/-!
# Managed workspaces

The directory of the workspace store and the operations on it, with steps that may fail or be the
last one before a crash. A replacement moves the old tree aside and the new one in, and keeps no
journal of it: what is aside when the second move does not come about stays aside.
-/

namespace SkillHive

open Foundation Deployment

namespace WorkspaceStore

/-- The names in the directory of the store. -/
inductive Entry where
  /-- `path_for_skill`, the digest of the skill's identifier in hexadecimal digits -/
  | workspace (digest : String)
  | stage (uuid : String)
  | backup (uuid : String)
  deriving DecidableEq, Repr

abbrev Root (ε : Type) : Type := Entry → Option (Node ε)

inductive WorkspaceError where
  | io
  | snapshot
  | invalidSkillId
  /-- The path is the entry's, or one inside it. -/
  | invalidWorkspace (entry : Entry) (inside : Option String)
  | alreadyExists (entry : Entry)
  | incompleteWorkspace (entry : Entry)
  | initialSkillTooLarge (size : ℕ)
  deriving DecidableEq, Repr

/-- The fallible steps of the operations. -/
inductive StoreStep where
  | readPath
  | readEntrypoint
  | readDirectory
  | createDirectory
  | syncRoot
  | writeEntrypoint
  | syncWorkspace
  | discardEntrypoint
  | readTarget
  | materialize
  | discardPart
  | syncMaterialized
  | moveAside
  | moveIn
  | moveBack
  | syncMoved
  | removeBackup
  | removeStaging
  | removePath
  | syncRemoved
  deriving DecidableEq, Repr

/-- What the operations take from elsewhere: SHA-256, the file `SKILL.md` and the blob store. -/
structure Environment (ε : Type) where
  digest : String → String
  entrypoint : String → ε
  /-- At the path `SKILL.md`, or inside a directory there. -/
  isEntrypoint : DirEntry ε → Bool
  blobs : Blobs ε

variable {ε : Type} [DecidableEq ε]

abbrev StoreAction (ε α : Type) : Type := Faulty StoreStep (Root ε) (Point ε) WorkspaceError α

/-! ## Steps on the directory -/

/-- A step that fails with an I/O error and changes nothing. -/
def syncDirectory (step : StoreStep) : StoreAction ε Unit := Faulty.inspect step .io fun _ ↦ ()

/-- `fs::symlink_metadata`, with what there is -/
def readEntry (step : StoreStep) (entry : Entry) : StoreAction ε (Option (Node ε)) :=
  Faulty.inspect step .io fun root ↦ root entry

/-- The directory after an entry has got another name. -/
def moved (source target : Entry) (root : Root ε) : Root ε :=
  Function.update (Function.update root target (root source)) source none

/-- `fs::rename` to a name that is free. -/
def rename (step : StoreStep) (source target : Entry) : StoreAction ε Unit :=
  Faulty.perform step .io (atomic (moved source target))

/-- What a removal does not support. -/
def unsupportedIn (entry : Entry) : Node ε → Option WorkspaceError
  | .file _ => none
  | .dir entries => (entries.findSome? DirEntry.special?).map fun path ↦ .invalidWorkspace entry path
  | .special => some (.invalidWorkspace entry none)

/-- `remove_tree_without_following_symlinks` -/
def removeTree (step : StoreStep) (entry : Entry) : StoreAction ε Unit := do
  let root ← Faulty.look
  Faulty.perform step .io (removal (fun root ↦ root entry) fun node root ↦ Function.update root entry node)
  match (root entry).bind (unsupportedIn entry) with
  | none => pure ()
  | some error => Faulty.fail error

/-- The files of a snapshot, up to the first one that is missing. -/
def writeFiles (files : List ε) (served : ℕ) (entry : Entry) : StoreAction ε Unit := do
  Faulty.perform .materialize .snapshot
    { run := fun root ↦ Function.update root entry (some (.snapshot (files.take served)))
      cut := fun point root ↦
        (writing (files.take served) point).map fun node ↦ Function.update root entry node }
  if files.length ≤ served then pure () else Faulty.fail .snapshot

/-- `materialize_snapshot` -/
def materializeSnapshot (blobs : Blobs ε) (snapshotHash : String) (entry : Entry) :
    StoreAction ε Unit := do
  match ← readEntry .readTarget entry with
  | some _ => Faulty.fail .snapshot
  | none =>
    match blobs.manifest snapshotHash with
    | none => Faulty.fail .snapshot
    | some files =>
      match ← (writeFiles files (blobs.served snapshotHash) entry).attempt with
      | .ok () => pure ()
      | .error error =>
        let _ ← (removeTree .discardPart entry).attempt
        Faulty.fail error

/-- `validate_skill_id` and `path_for_skill` -/
def pathForSkill (env : Environment ε) (skillId : String) : StoreAction ε Entry :=
  if trim skillId = "" ∨ 512 < skillId.utf8ByteSize then Faulty.fail .invalidSkillId
  else pure (.workspace (env.digest skillId))

/-! ## Operations -/

/-- `MAX_INITIAL_SKILL_MD_BYTES` -/
def maxInitialSkillMdBytes : ℕ := 2 * 1024 * 1024

/-- `write_new_file_durable` of `SKILL.md`, through a temporary file in the empty directory -/
def writeNewFileDurable (entry : Entry) (file : ε) : StoreAction ε Unit := do
  let written ← (do
    Faulty.perform .writeEntrypoint .io
      { run := fun root ↦ Function.update root entry (some (.snapshot [file]))
        cut := fun point root ↦
          match point with
          | .untouched => some root
          | .written 0 torn => some (Function.update root entry (some (.snapshot torn.toList)))
          | _ => none }
    syncDirectory .syncWorkspace : StoreAction ε Unit).attempt
  match written with
  | .ok () => pure ()
  | .error error =>
    -- The temporary file goes; under its own name the file stays.
    let _ ← (Faulty.perform .discardEntrypoint .io (atomic fun root ↦
      if root entry = some (.snapshot [file]) then root
      else Function.update root entry (some (.dir []))) : StoreAction ε Unit).attempt
    Faulty.fail error

/-- `read_dir`, which has to find nothing -/
def requireNoFiles (path : Entry) (entries : List (DirEntry ε)) : StoreAction ε Unit := do
  syncDirectory .readDirectory
  if entries = [] then pure () else Faulty.fail (.incompleteWorkspace path)

/-- The directory of a new workspace, if it has no file yet. -/
def prepareDirectory (env : Environment ε) (path : Entry) : StoreAction ε Unit := do
  match ← readEntry .readPath path with
  | some (.file _) | some .special => Faulty.fail (.invalidWorkspace path none)
  | some (.dir entries) =>
    match ← (syncDirectory .readEntrypoint : StoreAction ε Unit).attempt with
    | .ok () =>
      if entries.any env.isEntrypoint then Faulty.fail (.alreadyExists path)
      else requireNoFiles path entries
    | .error _ => requireNoFiles path entries
  | none =>
    Faulty.perform .createDirectory .io (atomic fun root ↦ Function.update root path (some (.dir [])))
    syncDirectory .syncRoot

/-- `create` -/
def create (env : Environment ε) (skillId initialSkillMd : String) : StoreAction ε Entry := do
  let path ← pathForSkill env skillId
  if maxInitialSkillMdBytes < initialSkillMd.utf8ByteSize then
    Faulty.fail (.initialSkillTooLarge initialSkillMd.utf8ByteSize)
  else
    prepareDirectory env path
    writeNewFileDurable path (env.entrypoint initialSkillMd)
    syncDirectory .syncMoved
    pure path

/-- `import_snapshot` -/
def importSnapshot (env : Environment ε) (skillId snapshotHash : String) : StoreAction ε Entry := do
  let path ← pathForSkill env skillId
  match ← readEntry .readPath path with
  | some _ => Faulty.fail (.alreadyExists path)
  | none =>
    materializeSnapshot env.blobs snapshotHash path
    syncDirectory .syncMaterialized
    pure path

/-- The old tree moves aside, if there is one. -/
def moveOldAside (path backup : Entry) : StoreAction ε Bool := do
  match ← readEntry .readPath path with
  | some (.file _) | some .special => Faulty.fail (.invalidWorkspace path none)
  | some (.dir _) =>
    rename .moveAside path backup
    pure true
  | none => pure false

/-- The new tree moves in, or the old one back. -/
def moveNewIn (stage path backup : Entry) (hadOld : Bool) : StoreAction ε Unit := do
  match ← (rename .moveIn stage path : StoreAction ε Unit).attempt with
  | .ok () => pure ()
  | .error error =>
    if hadOld then
      let _ ← (rename .moveBack backup path : StoreAction ε Unit).attempt
      Faulty.fail error
    else Faulty.fail error

/-- The closure in `replace_snapshot` -/
def activateSnapshot (env : Environment ε) (snapshotHash : String) (stage path backup : Entry) :
    StoreAction ε Entry := do
  materializeSnapshot env.blobs snapshotHash stage
  syncDirectory .syncMaterialized
  let hadOld ← moveOldAside path backup
  moveNewIn stage path backup hadOld
  syncDirectory .syncMoved
  if hadOld then
    let _ ← (removeTree .removeBackup backup).attempt
    pure path
  else pure path

/-- `replace_snapshot`, with the identifiers that it draws -/
def replaceSnapshot (env : Environment ε) (skillId snapshotHash stageId backupId : String) :
    StoreAction ε Entry := do
  let path ← pathForSkill env skillId
  match ← (activateSnapshot env snapshotHash (.stage stageId) path (.backup backupId)).attempt with
  | .ok path => pure path
  | .error error =>
    let _ ← (removeTree .removeStaging (.stage stageId)).attempt
    Faulty.fail error

/-- `get` -/
def get (env : Environment ε) (skillId : String) : StoreAction ε (Option Entry) := do
  let path ← pathForSkill env skillId
  match ← readEntry .readPath path with
  | some (.file _) | some .special => Faulty.fail (.invalidWorkspace path none)
  | some (.dir _) => pure (some path)
  | none => pure none

/-- `remove` -/
def remove (env : Environment ε) (skillId : String) : StoreAction ε Bool := do
  let path ← pathForSkill env skillId
  match ← readEntry .readPath path with
  | some (.file _) | some .special => Faulty.fail (.invalidWorkspace path none)
  | some (.dir _) =>
    removeTree .removePath path
    syncDirectory .syncRemoved
    pure true
  | none => pure false

/-! ## Runs -/

inductive StoreCall where
  | create (skillId initialSkillMd : String)
  | importSnapshot (skillId snapshotHash : String)
  | replaceSnapshot (skillId snapshotHash stageId backupId : String)
  | get (skillId : String)
  | remove (skillId : String)
  deriving DecidableEq, Repr

/-- What a call leaves of the directory. -/
def StoreCall.leaves (env : Environment ε) (call : StoreCall)
    (faults : Schedule StoreStep (Point ε)) (root : Root ε) : Root ε :=
  match call with
  | create skillId initialSkillMd => (WorkspaceStore.create env skillId initialSkillMd faults root).2
  | importSnapshot skillId snapshotHash =>
    (WorkspaceStore.importSnapshot env skillId snapshotHash faults root).2
  | replaceSnapshot skillId snapshotHash stageId backupId =>
    (WorkspaceStore.replaceSnapshot env skillId snapshotHash stageId backupId faults root).2
  | get skillId => (WorkspaceStore.get env skillId faults root).2
  | remove skillId => (WorkspaceStore.remove env skillId faults root).2

/-- The identifiers that a call draws are not in use. -/
def StoreCall.IsFresh (root : Root ε) : StoreCall → Prop
  | replaceSnapshot _ _ stageId backupId => root (.stage stageId) = none ∧ root (.backup backupId) = none
  | _ => True

instance (root : Root ε) (call : StoreCall) : Decidable (call.IsFresh root) := by
  cases call <;> unfold StoreCall.IsFresh <;> infer_instance

/-- One call after the other, each with what goes wrong with its steps. -/
def storeCalls (env : Environment ε) :
    TransitionSystem (Root ε) (StoreCall × Schedule StoreStep (Point ε)) where
  init _ := True
  step root call := if call.1.IsFresh root then some (call.1.leaves env call.2 root) else none

end WorkspaceStore

end SkillHive
