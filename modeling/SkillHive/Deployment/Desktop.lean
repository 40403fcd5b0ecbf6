import Mathlib.Logic.Function.Basic
import SkillHive.Deployment.Journals
import SkillHive.Deployment.Requests
import SkillHive.LocalStore.LapsedLeases

/-!
# The desktop and the directories of its agents

The store, the agent profiles, what is at the paths that skills are deployed to, and the journals
of one machine. The commands deploy and uninstall one skill at a time, the recoveries of a start go
through the journals, the sync worker writes the store, and the user edits the directories. A
command or a recovery may be cut off anywhere.

Three fields only record history: whether `deploy` put there what is at a path, whether it put
there what a transaction has moved aside, and whether the user has changed a path since the catalog
recorded it. A path is its components, and the reserved names beside it belong to one transaction.

The skill root of one agent may be inside a target of another. A command that changes something at
one path then changes what is inside and around that path as well, in any way at all here.
-/

namespace SkillHive

open Foundation LocalStore

namespace Deployment

abbrev Location := List String

/-- What is at a path. -/
structure Site (ε : Type) where
  node : Option (Node ε)
  /-- `deploy` put it there. -/
  deployed : Bool
  /-- The user changed it after the catalog recorded it. -/
  edited : Bool
  deriving DecidableEq, Repr

/-- What a deployment has on disk apart from its target. -/
structure Transit (ε : Type) where
  staging : Option (Node ε)
  backup : Option (Node ε)
  journal : Option (LogFile DeploymentJournal)
  /-- `deploy` had put there what the deployment found. -/
  oldDeployed : Bool
  deriving DecidableEq, Repr

/-- What an uninstall has on disk apart from its target. -/
structure Removal (ε : Type) where
  quarantine : Option (Node ε)
  journal : Option (LogFile Uninstall.UninstallJournal)
  /-- `deploy` had put there what the uninstall found. -/
  oldDeployed : Bool
  deriving DecidableEq, Repr

/-- No transaction of this identifier has begun. -/
def Transit.unused {ε : Type} : Transit ε := ⟨none, none, none, false⟩

def Removal.unused {ε : Type} : Removal ε := ⟨none, none, false⟩

structure Desktop (ε : Type) where
  store : LocalStore
  agentProfiles : AgentProfileTable
  sites : Location → Site ε
  transits : String → Transit ε
  removals : String → Removal ε

variable {ε : Type} [DecidableEq ε]

/-- Something else is at the path: `arrived` tells whether `deploy` put it there. -/
def Site.become (site : Site ε) (node : Option (Node ε)) (arrived : Bool) : Site ε :=
  if node = site.node then site else { site with node, deployed := arrived && node.isSome }

/-- `verify_materialized_snapshot` -/
def Blobs.verifies (blobs : Blobs ε) (snapshotHash : String) (node : Option (Node ε)) : Bool :=
  node.any fun node ↦ (blobs.manifest snapshotHash).map Node.snapshot = some node

namespace Desktop

/-- A fresh install on an empty disk. -/
def fresh : Desktop ε where
  store := LocalStore.fresh
  agentProfiles := .empty
  sites := fun _ ↦ ⟨none, false, false⟩
  transits := fun _ ↦ .unused
  removals := fun _ ↦ .unused

variable (w : Desktop ε)

/-! ## Deployments -/

/-- The disk as a deployment sees it. -/
def disk (transactionId : String) (path : Location) : Disk ε where
  destination := (w.sites path).node
  staging := (w.transits transactionId).staging
  backup := (w.transits transactionId).backup
  journal := (w.transits transactionId).journal

/-- What a deployment or its recovery leaves; `reported` when it has told that the snapshot is
in its place. -/
def putDisk (transactionId : String) (path : Location) (disk : Disk ε)
    (reported arrived oldDeployed : Bool) : Desktop ε :=
  { w with
    sites := Function.update w.sites path
      (if reported then
        { w.sites path with node := disk.destination, deployed := disk.destination.isSome }
      else (w.sites path).become disk.destination arrived)
    transits := Function.update w.transits transactionId
      ⟨disk.staging, disk.backup, disk.journal, oldDeployed⟩ }

/-- `DeploymentEngine::deploy` on this machine, ended or cut off. -/
def runDeploy (blobs : Blobs ε) (transactionId : String) (request : DeploymentRequest)
    (cut : Option (ℕ × Point ε)) :
    Option (Option (Except DeploymentError DeploymentResult) × Desktop ε) :=
  let path := components request.targetPath
  ((deploy blobs transactionId request).runUntil cut (w.disk transactionId path)).map fun out ↦
    let reported := out.1.any fun result ↦ result.toOption.isSome
    (out.1, w.putDisk transactionId path out.2 reported true (w.sites path).deployed)

/-- The journal of the deployment as it is read. -/
def journal? (transactionId : String) : Option DeploymentJournal :=
  (w.transits transactionId).journal.bind fun file ↦ (readLatestJournal file).toOption

/-- `acknowledge_catalog_commit`, which removes the journal unless it rejects the request. -/
def acknowledgeCatalogCommit (blobs : Blobs ε) (transactionId : String) : Desktop ε :=
  let transit := w.transits transactionId
  if (w.journal? transactionId).any fun journal ↦
      journal.transactionId = transactionId ∧ journal.phase = .activated ∧
        transit.staging = none ∧ transit.backup = none ∧
        blobs.verifies journal.snapshotHash (w.sites (components journal.targetPath)).node = true then
    { w with transits := Function.update w.transits transactionId { transit with journal := none } }
  else w

/-- The catalog has recorded what is at the path. -/
def recorded (store : LocalStore) (path : Location) : Desktop ε :=
  { w with store, sites := Function.update w.sites path { w.sites path with edited := false } }

/-- The end of a deployment, in its command and at a start: the target is verified, the catalog
records it, and the journal goes if it is `acknowledged`. -/
def recordVerified (blobs : Blobs ε) (result : DeploymentResult) (acknowledged : Bool) : Desktop ε :=
  let path := components result.targetPath
  if blobs.verifies result.snapshotHash (w.sites path).node then
    match recordDeployment w.store w.agentProfiles result.record with
    | .error _ => w
    | .ok (store, _) =>
      if acknowledged then (w.recorded store path).acknowledgeCatalogCommit blobs result.transactionId
      else w.recorded store path
  else w

/-- `deploy_single`. It may be cut off in the engine, or before the catalog has a record
(`commit` is `none`), or before the journal is acknowledged. -/
def deploySingle (blobs : Blobs ε) (transactionId skillId agentProfileId : String)
    (cut : Option (ℕ × Point ε)) (commit : Option Bool) : Option (Desktop ε) :=
  match deploymentRequest w.store w.agentProfiles skillId agentProfileId with
  | .error _ => none
  | .ok request =>
    if w.transits transactionId = .unused then
      (w.runDeploy blobs transactionId request cut).map fun out ↦
        match out.1, commit with
        | some (.ok result), some acknowledged => out.2.recordVerified blobs result acknowledged
        | _, _ => out.2
    else none

/-- `recover_one`, for a journal that can be read. -/
def runRecovery (blobs : Blobs ε) (transactionId : String) (journal : DeploymentJournal)
    (cut : Option (ℕ × Point ε)) :
    Option (Option (Except DeploymentError RecoveryOutcome) × Desktop ε) :=
  let path := components journal.targetPath
  let transit := w.transits transactionId
  transit.journal.bind fun file ↦
    ((recoverOne blobs file).runUntil cut (w.disk transactionId path)).map fun out ↦
      let reported := out.1.any fun result ↦
        result.toOption.any fun outcome ↦ outcome ≠ .rolledBack
      (out.1, w.putDisk transactionId path out.2 reported
        (out.2.journal.isSome || transit.oldDeployed) transit.oldDeployed)

def recoverDeployment (blobs : Blobs ε) (transactionId : String) (cut : Option (ℕ × Point ε)) :
    Option (Desktop ε) :=
  (w.journal? transactionId).bind fun journal ↦
    (w.runRecovery blobs transactionId journal cut).map Prod.snd

/-- The replay of a catalog commit at a start. -/
def recordRecovered (blobs : Blobs ε) (transactionId : String) (acknowledged : Bool) :
    Option (Desktop ε) :=
  (w.journal? transactionId).bind fun journal ↦
    if journal.phase = .activated then some (w.recordVerified blobs journal.result acknowledged)
    else none

/-! ## Uninstalls -/

/-- The machine as an uninstall sees it. -/
def machine (transactionId : String) (path : Location) (key : String × String) :
    Uninstall.Machine ε where
  target := (w.sites path).node
  quarantine := (w.removals transactionId).quarantine
  journal := (w.removals transactionId).journal
  installed := (w.store.deployments.get? key).isSome

/-- What an uninstall or its reconciliation leaves; `removed` is the store without the row. -/
def putMachine (transactionId : String) (path : Location) (machine : Uninstall.Machine ε)
    (removed : LocalStore) (arrived oldDeployed : Bool) : Desktop ε :=
  { w with
    store := if machine.installed then w.store else removed
    sites := Function.update w.sites path ((w.sites path).become machine.target arrived)
    removals := Function.update w.removals transactionId
      ⟨machine.quarantine, machine.journal, oldDeployed⟩ }

/-- `uninstall_skill_from_agent` from its first step on the disk on, ended or cut off. The
transaction of the catalog may fail. -/
def runUninstall (transactionId : String) (profile : AgentProfile) (row : SkillDeployment)
    (commits : Bool) (cut : Option (ℕ × Point ε)) : Option (Uninstall.Machine ε) :=
  ((Uninstall.uninstallSkillFromAgent commits transactionId
    ⟨row.skillId, row.agentProfileId, profile.skillRoot, row.targetPath⟩).runUntil cut
      (w.machine transactionId (components row.targetPath) row.key)).map Prod.snd

/-- `uninstall_skill_from_agent` -/
def uninstallSkillFromAgent (transactionId skillId agentProfileId : String) (commits : Bool)
    (cut : Option (ℕ × Point ε)) : Option (Desktop ε) :=
  match w.store.deployments.get? (skillId, agentProfileId), w.agentProfiles.get? agentProfileId with
  | some row, some profile =>
    if HasParent row.targetPath profile.skillRoot ∧ w.removals transactionId = .unused then
      let path := components row.targetPath
      let removed := transactionally (removeDeploymentCatalog w.store skillId agentProfileId
        row.deployedBlobHash row.targetPath) w.store
      (w.runUninstall transactionId profile row commits cut).map fun machine ↦
        w.putMachine transactionId path machine removed false (w.sites path).deployed
    else none
  | _, _ => none

/-- The journal of the uninstall as it is read. -/
def uninstallJournal? (transactionId : String) : Option Uninstall.UninstallJournal :=
  (w.removals transactionId).journal.bind fun file ↦ (Uninstall.readLatestJournal file).toOption

/-- `reconcile_uninstall_recovery` for one journal -/
def reconcileUninstall (transactionId : String) (cut : Option (ℕ × Point ε)) : Option (Desktop ε) :=
  (w.uninstallJournal? transactionId).bind fun journal ↦
    let path := components journal.targetPath
    let oldDeployed := (w.removals transactionId).oldDeployed
    (Uninstall.reconcileUninstallRecovery.runUntil cut
      (w.machine transactionId path (journal.skillId, journal.agentProfileId))).map fun out ↦
        w.putMachine transactionId path out.2 w.store oldDeployed oldDeployed

/-! ## Other steps -/

/-- The user puts something at a path, or removes what is there. -/
def editByHand (path : Location) (node : Option (Node ε)) : Desktop ε :=
  { w with
    sites := Function.update w.sites path
      { node, deployed := (w.sites path).deployed && node.isSome, edited := true } }

end Desktop

/-! ## Paths inside and around others -/

/-- One of the two paths is inside the other. -/
def Nested (path path' : Location) : Prop := path ≠ path' ∧ (path <+: path' ∨ path' <+: path)

instance (path path' : Location) : Decidable (Nested path path') :=
  inferInstanceAs (Decidable (_ ∧ _))

/-- What there is inside and around a path after a change there, at other paths and of other
transactions. -/
structure Wake (ε : Type) where
  sites : Location → Option (Node ε)
  stagings : String → Option (Node ε)
  backups : String → Option (Node ε)
  quarantines : String → Option (Node ε)

/-- Nothing is inside or around the path. -/
def Wake.nothing : Wake ε := ⟨fun _ ↦ none, fun _ ↦ none, fun _ ↦ none, fun _ ↦ none⟩

/-- Something else is at the path because of a change inside or around it. What comes back with a
directory does not count as deployed. -/
def Site.follow (site : Site ε) (node : Option (Node ε)) (byHand : Bool) : Site ε :=
  if node = site.node then site
  else { node, deployed := site.deployed && node.isSome, edited := site.edited || byHand }

/-- A change at a path reaches what is inside and around it. The journals and the store are
elsewhere. -/
def Desktop.stir (w : Desktop ε) (path : Location) (byHand : Bool) (wake : Wake ε) : Desktop ε :=
  { w with
    sites := fun path' ↦
      if Nested path path' then (w.sites path').follow (wake.sites path') byHand else w.sites path'
    transits := fun transactionId ↦
      if (w.journal? transactionId).any fun journal ↦
          path ≠ components journal.targetPath ∧ path <+: components journal.targetPath then
        { w.transits transactionId with
          staging := wake.stagings transactionId, backup := wake.backups transactionId }
      else w.transits transactionId
    removals := fun transactionId ↦
      if (w.uninstallJournal? transactionId).any fun journal ↦
          path ≠ components journal.targetPath ∧ path <+: components journal.targetPath then
        { w.removals transactionId with quarantine := wake.quarantines transactionId }
      else w.removals transactionId }

/-! ## Steps -/

/-- The blobs that a machine has at a time. What a hash stands for does not change. -/
structure BlobCache where
  has : String → Bool
  served : String → ℕ

def BlobCache.blobs (cache : BlobCache) (snapshots : String → Option (List ε)) : Blobs ε where
  manifest hash := if cache.has hash then snapshots hash else none
  served := cache.served

inductive DesktopCommand (ε : Type) where
  | writeStore (event : StoreEvent)
  | upsertAgentProfile (profile : AgentProfile)
  | editByHand (path : Location) (node : Option (Node ε))
  | deploySingle (cache : BlobCache) (transactionId skillId agentProfileId : String)
      (cut : Option (ℕ × Point ε)) (commit : Option Bool)
  | recoverDeployment (cache : BlobCache) (transactionId : String) (cut : Option (ℕ × Point ε))
  | recordRecovered (cache : BlobCache) (transactionId : String) (acknowledged : Bool)
  | uninstallSkillFromAgent (transactionId skillId agentProfileId : String) (commits : Bool)
      (cut : Option (ℕ × Point ε))
  | reconcileUninstall (transactionId : String) (cut : Option (ℕ × Point ε))

/-- The event puts another catalog in place of the one there is, which no part of the app does. -/
def replacesCatalog : StoreEvent → Bool
  | .operation (.writeDeployments _) => true
  | _ => false

/-- A command with the change of its own path. -/
def commandStep (host : Host) (snapshots : String → Option (List ε)) (w : Desktop ε) :
    DesktopCommand ε → Option (Desktop ε)
  | .writeStore event =>
    if replacesCatalog event then none
    else (eventStep host w.store event).map fun store ↦ { w with store }
  | .upsertAgentProfile profile =>
    (upsertAgentProfile w.agentProfiles w.store.deployments profile).toOption.map
      fun agentProfiles ↦ { w with agentProfiles }
  | .editByHand path node => some (w.editByHand path node)
  | .deploySingle cache transactionId skillId agentProfileId cut commit =>
    w.deploySingle (cache.blobs snapshots) transactionId skillId agentProfileId cut commit
  | .recoverDeployment cache transactionId cut =>
    w.recoverDeployment (cache.blobs snapshots) transactionId cut
  | .recordRecovered cache transactionId acknowledged =>
    w.recordRecovered (cache.blobs snapshots) transactionId acknowledged
  | .uninstallSkillFromAgent transactionId skillId agentProfileId commits cut =>
    w.uninstallSkillFromAgent transactionId skillId agentProfileId commits cut
  | .reconcileUninstall transactionId cut => w.reconcileUninstall transactionId cut

/-- The path where a command changes the disk, if it does so anywhere. -/
def DesktopCommand.place (w : Desktop ε) : DesktopCommand ε → Option Location
  | .editByHand path _ => some path
  | .deploySingle _ _ skillId agentProfileId .. =>
    (deploymentRequest w.store w.agentProfiles skillId agentProfileId).toOption.map
      fun request ↦ components request.targetPath
  | .recoverDeployment _ transactionId _ =>
    (w.journal? transactionId).map fun journal ↦ components journal.targetPath
  | .uninstallSkillFromAgent _ skillId agentProfileId .. =>
    (w.store.deployments.get? (skillId, agentProfileId)).map fun row ↦ components row.targetPath
  | .reconcileUninstall transactionId _ =>
    (w.uninstallJournal? transactionId).map fun journal ↦ components journal.targetPath
  | _ => none

def DesktopCommand.byHand : DesktopCommand ε → Bool
  | .editByHand .. => true
  | _ => false

/-- A command, and what it changes inside and around its path. -/
structure DesktopAction (ε : Type) where
  command : DesktopCommand ε
  wake : Wake ε

/-- The command where nothing is inside or around its path. -/
def DesktopAction.alone (command : DesktopCommand ε) : DesktopAction ε := ⟨command, .nothing⟩

def desktopStep (host : Host) (snapshots : String → Option (List ε)) (w : Desktop ε)
    (action : DesktopAction ε) : Option (Desktop ε) :=
  (commandStep host snapshots w action.command).map fun w' ↦
    (action.command.place w).elim w' fun path ↦ w'.stir path action.command.byHand action.wake

/-- One machine, from a fresh install on. -/
def desktop (host : Host) (snapshots : String → Option (List ε)) :
    TransitionSystem (Desktop ε) (DesktopAction ε) where
  init := fun w ↦ w = .fresh
  step := desktopStep host snapshots

end Deployment

end SkillHive
