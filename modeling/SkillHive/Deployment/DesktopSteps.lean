import SkillHive.Deployment.Rollbacks

/-!
# What each step of the desktop leaves

Every step on the disk changes one path, the files of one transaction, and at most one row of the
catalog.
-/

namespace SkillHive

open Foundation LocalStore

namespace Deployment

variable {ε : Type} [DecidableEq ε] {w w' : Desktop ε} {blobs : Blobs ε}
  {transactionId skillId agentProfileId : String}

@[simp]
theorem Site.become_node (site : Site ε) (node : Option (Node ε)) (arrived : Bool) :
    (site.become node arrived).node = node := by
  unfold become
  split <;> simp_all

@[simp]
theorem Site.become_edited (site : Site ε) (node : Option (Node ε)) (arrived : Bool) :
    (site.become node arrived).edited = site.edited := by
  unfold become
  split <;> rfl

/-- The same rows for the same paths, of which some may no longer be installed. -/
structure Relabels (deployments deployments' : DeploymentTable) : Prop where
  origin : ∀ row' ∈ deployments', ∃ row ∈ deployments, row'.key = row.key ∧
    row'.targetPath = row.targetPath ∧ (row'.state = .installed → row' = row)
  keeps : ∀ row ∈ deployments, ∃ row' ∈ deployments', row'.key = row.key ∧
    row'.targetPath = row.targetPath

theorem Relabels.refl (deployments : DeploymentTable) : Relabels deployments deployments :=
  ⟨fun row h ↦ ⟨row, h, rfl, rfl, fun _ ↦ rfl⟩, fun row h ↦ ⟨row, h, rfl, rfl⟩⟩

theorem Relabels.trans {first second third : DeploymentTable} (h : Relabels first second)
    (h' : Relabels second third) : Relabels first third := by
  constructor
  · intro row'' hrow''
    obtain ⟨row', hrow', hkey', hpath', hsame'⟩ := h'.origin row'' hrow''
    obtain ⟨row, hrow, hkey, hpath, hsame⟩ := h.origin row' hrow'
    refine ⟨row, hrow, hkey'.trans hkey, hpath'.trans hpath, fun hinstalled ↦ ?_⟩
    have hrow := hsame' hinstalled
    subst hrow
    exact hsame hinstalled
  · intro row hrow
    obtain ⟨row', hrow', hkey', hpath'⟩ := h.keeps row hrow
    obtain ⟨row'', hrow'', hkey'', hpath''⟩ := h'.keeps row' hrow'
    exact ⟨row'', hrow'', hkey''.trans hkey', hpath''.trans hpath'⟩

theorem revokeDeployments_relabels (deployments : DeploymentTable) (skillId : String) :
    Relabels deployments (revokeDeployments deployments skillId) := by
  have hkept : ∀ d : SkillDeployment, d.revoke.key = d.key ∧ d.revoke.targetPath = d.targetPath ∧
      (d.revoke.state = .installed → d.revoke = d) := by
    intro d
    refine ⟨?_, ?_, fun hinstalled ↦ ?_⟩
    · unfold SkillDeployment.revoke
      split <;> rfl
    · unfold SkillDeployment.revoke
      split <;> rfl
    · have hinactive := d.revoke_isActive
      rw [hinstalled] at hinactive
      cases hinactive
  constructor
  · intro row' hrow'
    obtain ⟨row, hrow, rfl⟩ := Table.mem_update.mp hrow'
    refine ⟨row, hrow, ?_⟩
    split
    · exact hkept row
    · exact ⟨rfl, rfl, fun _ ↦ rfl⟩
  · intro row hrow
    refine ⟨_, Table.mem_update.mpr ⟨row, hrow, rfl⟩, ?_⟩
    split
    · exact ⟨(hkept row).1, (hkept row).2.1⟩
    · exact ⟨rfl, rfl⟩

theorem expireDueEntitlements_relabels (store : LocalStore) (skillIds : List String) :
    Relabels store.deployments (skillIds.foldl LocalStore.expireSkill store).deployments := by
  induction skillIds generalizing store with
  | nil => exact .refl _
  | cons skillId skillIds ih =>
    exact (revokeDeployments_relabels store.deployments skillId).trans (ih (store.expireSkill skillId))

/-- A step of the store removes the rows of one skill, or leaves every row its path. -/
theorem eventStep_relabels {host : Host} {store store' : LocalStore} {event : StoreEvent}
    (h : eventStep host store event = some store') (hevent : replacesCatalog event = false) :
    (∃ skillId, store.removedSkill? event = some skillId ∧ store' = store.deleteSkill skillId) ∨
      Relabels store.deployments store'.deployments := by
  rcases eventStep_frame h with ⟨-, hkept⟩ | hremoved | ⟨utcNow, change, rfl⟩ |
    ⟨utcNow, rfl⟩ | ⟨deployments, rfl⟩
  · exact .inr (hkept ▸ .refl _)
  · exact .inl hremoved
  · obtain ⟨count, hlease⟩ := committed_eq_some.mp h
    rcases applyChangeEntitlement_lease hlease with ⟨-, hstore⟩ | ⟨payload, row, -, -, hkept, -⟩
    · exact .inr (hstore ▸ .refl _)
    · exact .inr (hkept ▸ .refl _)
  · cases h
    exact .inr (expireDueEntitlements_relabels _ _)
  · cases hevent

namespace Desktop

/-! ## Views put back -/

section Put

variable (w) {path path' : Location} {disk : Disk ε} {reported arrived oldDeployed : Bool}
  {machine : Uninstall.Machine ε} {removed : LocalStore}

@[simp]
theorem putDisk_node :
    ((w.putDisk transactionId path disk reported arrived oldDeployed).sites path).node =
      disk.destination := by
  cases reported <;> simp [putDisk]

@[simp]
theorem putDisk_edited :
    ((w.putDisk transactionId path disk reported arrived oldDeployed).sites path').edited =
      (w.sites path').edited := by
  by_cases h : path' = path
  · subst h
    cases reported <;> simp [putDisk]
  · simp [putDisk, h]

theorem putDisk_sites_of_ne (h : path' ≠ path) :
    (w.putDisk transactionId path disk reported arrived oldDeployed).sites path' = w.sites path' :=
  Function.update_of_ne h _ _

@[simp]
theorem putMachine_node :
    ((w.putMachine transactionId path machine removed arrived oldDeployed).sites path).node =
      machine.target := by
  simp [putMachine]

@[simp]
theorem putMachine_edited :
    ((w.putMachine transactionId path machine removed arrived oldDeployed).sites path').edited =
      (w.sites path').edited := by
  by_cases h : path' = path
  · subst h
    simp [putMachine]
  · simp [putMachine, h]

theorem putMachine_sites_of_ne (h : path' ≠ path) :
    (w.putMachine transactionId path machine removed arrived oldDeployed).sites path' =
      w.sites path' := Function.update_of_ne h _ _

end Put

/-! ## Deployments -/

/-- The deployment of a command, over what the path has. -/
def transaction (w : Desktop ε) (blobs : Blobs ε) (transactionId : String)
    (request : DeploymentRequest) : Transaction ε where
  blobs
  transactionId
  request
  old := (w.sites (components request.targetPath)).node

variable {request : DeploymentRequest} {cut : Option (ℕ × Point ε)} {commit : Option Bool}
  {result : Option (Except DeploymentError DeploymentResult)}

/-- How the engine leaves a deployment: done, stuck at the old target, given up, or cut off in one
of its shapes. -/
inductive Deployed (w : Desktop ε) (tx : Transaction ε) :
    Option (Except DeploymentError DeploymentResult) → Desktop ε → Prop
  | done (files : List ε) (hserved : tx.Served) (hremovable : tx.Removable)
      (hfiles : tx.files? = some files) :
    Deployed w tx (some (.ok (tx.journal .intent).result))
      (w.putDisk tx.transactionId (components tx.request.targetPath)
        ⟨some (.snapshot files), none, none, some tx.activatedFile⟩ true true
        (w.sites (components tx.request.targetPath)).deployed)
  | refused (files : List ε) (left : Node ε) (hserved : tx.Served) (hrefused : ¬ tx.Removable)
      (hfiles : tx.files? = some files) :
    Deployed w tx (some (.error .unsupportedFileType))
      (w.putDisk tx.transactionId (components tx.request.targetPath)
        ⟨some (.snapshot files), none, some left, some tx.activatedFile⟩ false true
        (w.sites (components tx.request.targetPath)).deployed)
  | givenUp (hunserved : ¬ tx.Served) :
    Deployed w tx (some (.error .snapshot))
      (w.putDisk tx.transactionId (components tx.request.targetPath) tx.start false true
        (w.sites (components tx.request.targetPath)).deployed)
  | cutOff (disk : Disk ε) (hshape : tx.Shape disk) (hrecorded : Recorded tx.request.targetPath disk) :
    Deployed w tx none
      (w.putDisk tx.transactionId (components tx.request.targetPath) disk false true
        (w.sites (components tx.request.targetPath)).deployed)

/-- Only the path and the files of the transaction change. -/
theorem Deployed.eq_putDisk {tx : Transaction ε}
    {result : Option (Except DeploymentError DeploymentResult)} (h : Deployed w tx result w') :
    ∃ disk reported, w' = w.putDisk tx.transactionId (components tx.request.targetPath) disk reported
      true (w.sites (components tx.request.targetPath)).deployed := by
  cases h with
  | done files hserved hremovable hfiles => exact ⟨_, _, rfl⟩
  | refused files left hserved hrefused hfiles => exact ⟨_, _, rfl⟩
  | givenUp hunserved => exact ⟨_, _, rfl⟩
  | cutOff disk hshape hrecorded => exact ⟨_, _, rfl⟩

theorem runDeploy_spec {out : Option (Except DeploymentError DeploymentResult) × Desktop ε}
    (hunused : w.transits transactionId = .unused)
    (h : w.runDeploy blobs transactionId request cut = some out) :
    Deployed w (w.transaction blobs transactionId request) out.1 out.2 := by
  set tx := w.transaction blobs transactionId request with htx
  have hstart : w.disk transactionId (components request.targetPath) = tx.start := by
    simp [disk, hunused, Transit.unused, htx, transaction, Transaction.start]
  obtain ⟨⟨reached, disk⟩, hrun, rfl⟩ := Option.map_eq_some_iff.mp h
  change tx.deploy.runUntil cut (w.disk transactionId (components request.targetPath)) = _ at hrun
  rw [hstart] at hrun
  cases cut with
  | some stop =>
    obtain ⟨left, hcut, heq⟩ := Option.map_eq_some_iff.mp hrun
    obtain ⟨rfl, rfl⟩ := Prod.mk.inj heq
    exact .cutOff left ((deploy_meets tx).cutOff hcut) ((deploy_recorded tx).cutOff hcut)
  | none =>
    have hended : (some (tx.deploy.exec tx.start).1, (tx.deploy.exec tx.start).2) =
        (reached, disk) := Option.some.inj hrun
    by_cases hserved : tx.Served
    · by_cases hremovable : tx.Removable
      · obtain ⟨files, hfiles, hends⟩ := deploy_served hserved hremovable
        rw [hends.exec] at hended
        obtain ⟨rfl, rfl⟩ := Prod.mk.inj hended
        exact .done files hserved hremovable hfiles
      · obtain ⟨files, left, hfiles, hends⟩ := deploy_refused hserved hremovable
        rw [hends.exec] at hended
        obtain ⟨rfl, rfl⟩ := Prod.mk.inj hended
        exact .refused files left hserved hremovable hfiles
    · rw [(deploy_unserved hserved).exec] at hended
      obtain ⟨rfl, rfl⟩ := Prod.mk.inj hended
      exact .givenUp hserved

/-- A deployment that is left to end tells how it ended. -/
theorem runDeploy_isSome {out : Option (Except DeploymentError DeploymentResult) × Desktop ε}
    (h : w.runDeploy blobs transactionId request cut = some out) : out.1.isSome ↔ cut = none := by
  obtain ⟨⟨reached, disk⟩, hrun, rfl⟩ := Option.map_eq_some_iff.mp h
  cases cut with
  | none =>
    cases hrun
    exact iff_of_true rfl rfl
  | some stop =>
    obtain ⟨left, -, heq⟩ := Option.map_eq_some_iff.mp hrun
    obtain ⟨rfl, rfl⟩ := Prod.mk.inj heq
    exact iff_of_false Bool.false_ne_true nofun

/-- A deployment that does not get to its target leaves what is there. -/
theorem runDeploy_node {out : Option (Except DeploymentError DeploymentResult) × Desktop ε}
    (hunused : w.transits transactionId = .unused)
    (h : w.runDeploy blobs transactionId request cut = some out)
    (hearly : ¬ ((w.transaction blobs transactionId request).Served ∧
      Procedure.reaches 4 cut = true)) :
    (out.2.sites (components request.targetPath)).node =
      (w.sites (components request.targetPath)).node := by
  obtain ⟨⟨reached, disk⟩, hrun, rfl⟩ := Option.map_eq_some_iff.mp h
  have hstart : w.disk transactionId (components request.targetPath) =
      (w.transaction blobs transactionId request).start := by
    simp [Desktop.disk, hunused, Transit.unused, transaction, Transaction.start]
  rw [hstart] at hrun
  exact (putDisk_node w).trans (deploy_keepsOld hrun hearly)

theorem deploySingle_spec
    (h : w.deploySingle blobs transactionId skillId agentProfileId cut commit = some w') :
    ∃ request result w₁,
      deploymentRequest w.store w.agentProfiles skillId agentProfileId = .ok request ∧
      w.transits transactionId = .unused ∧
      w.runDeploy blobs transactionId request cut = some (result, w₁) ∧
      Deployed w (w.transaction blobs transactionId request) result w₁ ∧
      ((∃ reached acknowledged, result = some (.ok reached) ∧ commit = some acknowledged ∧
          w' = w₁.recordVerified blobs reached acknowledged) ∨
        (w' = w₁ ∧ ∀ reached, result = some (.ok reached) → commit = none)) := by
  unfold deploySingle at h
  split at h
  · cases h
  next request hrequest =>
    split at h
    case isFalse => cases h
    case isTrue hunused =>
      obtain ⟨⟨result, w₁⟩, hrun, rfl⟩ := Option.map_eq_some_iff.mp h
      refine ⟨request, result, w₁, hrequest, hunused, hrun, runDeploy_spec hunused hrun, ?_⟩
      dsimp only
      split
      next reached acknowledged => exact .inl ⟨reached, acknowledged, rfl, rfl, rfl⟩
      next hnot =>
        refine .inr ⟨rfl, fun reached hresult ↦ ?_⟩
        cases commit with
        | none => rfl
        | some acknowledged => exact absurd rfl (hnot reached acknowledged hresult)

/-! ## Records -/

/-- The desktop without the journal of the deployment. -/
def closeJournal (w : Desktop ε) (transactionId : String) : Desktop ε :=
  { w with
    transits := Function.update w.transits transactionId
      { w.transits transactionId with journal := none } }

theorem acknowledgeCatalogCommit_spec (w : Desktop ε) (blobs : Blobs ε) (transactionId : String) :
    w.acknowledgeCatalogCommit blobs transactionId = w ∨
      w.acknowledgeCatalogCommit blobs transactionId = w.closeJournal transactionId := by
  unfold acknowledgeCatalogCommit
  dsimp only
  split
  · exact .inr rfl
  · exact .inl rfl

theorem recordVerified_ok {w : Desktop ε} {result : DeploymentResult} {store : LocalStore}
    {record : SkillDeploymentRecord}
    (hverified : blobs.verifies result.snapshotHash (w.sites (components result.targetPath)).node =
      true)
    (hrecord : recordDeployment w.store w.agentProfiles result.record = .ok (store, record))
    (acknowledged : Bool) :
    w.recordVerified blobs result acknowledged =
        w.recorded store (components result.targetPath) ∨
      w.recordVerified blobs result acknowledged =
        (w.recorded store (components result.targetPath)).closeJournal result.transactionId := by
  unfold recordVerified
  dsimp only
  rw [if_pos hverified, hrecord]
  dsimp only
  split
  · exact acknowledgeCatalogCommit_spec _ _ _
  · exact .inl rfl

/-- The catalog has the row of what was verified, and the journal may be gone; or nothing is
changed. -/
theorem recordVerified_spec (w : Desktop ε) (blobs : Blobs ε) (result : DeploymentResult)
    (acknowledged : Bool) :
    w.recordVerified blobs result acknowledged = w ∨
      ∃ store record,
        blobs.verifies result.snapshotHash (w.sites (components result.targetPath)).node = true ∧
        recordDeployment w.store w.agentProfiles result.record = .ok (store, record) ∧
        (w.recordVerified blobs result acknowledged =
            w.recorded store (components result.targetPath) ∨
          w.recordVerified blobs result acknowledged =
            (w.recorded store (components result.targetPath)).closeJournal
              result.transactionId) := by
  by_cases hverified :
      blobs.verifies result.snapshotHash (w.sites (components result.targetPath)).node = true
  · cases hrecord : recordDeployment w.store w.agentProfiles result.record with
    | error e =>
      refine .inl ?_
      unfold recordVerified
      dsimp only
      rw [if_pos hverified, hrecord]
    | ok out =>
      obtain ⟨store, record⟩ := out
      exact .inr ⟨store, record, hverified, rfl, recordVerified_ok hverified hrecord acknowledged⟩
  · exact .inl (if_neg hverified)

theorem verifies_iff {snapshotHash : String} {node : Option (Node ε)} :
    blobs.verifies snapshotHash node = true ↔
      ∃ files, blobs.manifest snapshotHash = some files ∧ node = some (.snapshot files) := by
  unfold Blobs.verifies
  cases node with
  | none => simp
  | some node => cases blobs.manifest snapshotHash <;> simp [eq_comm]

/-! ## Recoveries -/

/-- Every journal is about one target. -/
structure JournalsMatch (w : Desktop ε) : Prop where
  transits : ∀ transactionId file, (w.transits transactionId).journal = some file →
    ∃ target, Begun target file ∨ Opened target file
  removals : ∀ transactionId file, (w.removals transactionId).journal = some file →
    ∃ target, file.Since [] fun record : Uninstall.UninstallJournal ↦ record.targetPath = target

omit [DecidableEq ε] in
theorem JournalsMatch.recorded (h : JournalsMatch w) {journal : DeploymentJournal}
    (hread : w.journal? transactionId = some journal) (path : Location) :
    ∃ file, (w.transits transactionId).journal = some file ∧ readLatestJournal file = .ok journal ∧
      Recorded journal.targetPath (w.disk transactionId path) := by
  obtain ⟨file, hfile, hread⟩ := Option.bind_eq_some_iff.mp hread
  rw [toOption_eq_some] at hread
  obtain ⟨target, htarget⟩ := h.transits transactionId file hfile
  have hrecorded : Recorded target (w.disk transactionId path) := by
    intro file' hfile'
    cases hfile.symm.trans hfile'
    exact htarget
  obtain ⟨rfl, -⟩ := hrecorded.read hfile hread
  exact ⟨file, hfile, hread, hrecorded⟩

/-- What a recovery may leave. -/
structure Recovers (w : Desktop ε) (blobs : Blobs ε) (transactionId : String)
    (journal : DeploymentJournal) (disk : Disk ε) (reported : Bool) : Prop where
  decided : Recovering blobs journal (w.disk transactionId (components journal.targetPath)) disk
  logged : LoggedOrClosed journal.targetPath disk ∨
    Untouched (w.disk transactionId (components journal.targetPath)) disk
  kept : reported = true → Logged journal.targetPath disk

theorem recoverDeployment_spec (hmatch : JournalsMatch w)
    (h : w.recoverDeployment blobs transactionId cut = some w') :
    ∃ journal disk reported, w.journal? transactionId = some journal ∧
      Recovers w blobs transactionId journal disk reported ∧
      w' = w.putDisk transactionId (components journal.targetPath) disk reported
        (disk.journal.isSome || (w.transits transactionId).oldDeployed)
        (w.transits transactionId).oldDeployed := by
  obtain ⟨journal, hjournal, h⟩ := Option.bind_eq_some_iff.mp h
  obtain ⟨file, hfile, hread, hrecorded⟩ := hmatch.recorded hjournal (components journal.targetPath)
  obtain ⟨out, hout, rfl⟩ := Option.map_eq_some_iff.mp h
  unfold runRecovery at hout
  dsimp only at hout
  rw [hfile] at hout
  obtain ⟨⟨result, disk⟩, hrun, rfl⟩ := Option.map_eq_some_iff.mp hout
  obtain ⟨hdecided, -⟩ := Procedure.Meets.runUntil (recoverOne_recovering hfile hread hrecorded) hrun
  obtain ⟨hlogged, hended⟩ := Procedure.Meets.runUntil (recoverOne_meets hfile hread hrecorded) hrun
  refine ⟨journal, disk, _, hjournal, ⟨hdecided, hlogged, fun hreported ↦ ?_⟩, rfl⟩
  obtain ⟨ended, hresult, hreported⟩ := (Option.any_eq_true _ _).mp hreported
  obtain ⟨outcome, hok, hcommitted⟩ := (Option.any_eq_true _ _).mp hreported
  rw [toOption_eq_some] at hok
  subst hok
  cases outcome with
  | rolledBack => simp at hcommitted
  | committed reached =>
    rcases hended _ hresult with (hlogged | ⟨-, hrolled⟩) | ⟨-, hnot⟩
    · exact hlogged
    · cases hrolled
    · exact absurd rfl (hnot reached)

/-! ## Uninstalls -/

/-- The uninstall of a row, over what its path has. -/
def uninstallation (w : Desktop ε) (transactionId : String) (profile : AgentProfile)
    (row : SkillDeployment) (commits : Bool) : Uninstall.Uninstallation ε where
  transactionId
  request := ⟨row.skillId, row.agentProfileId, profile.skillRoot, row.targetPath⟩
  target := (w.sites (components row.targetPath)).node
  commits

theorem uninstallSkillFromAgent_spec {commits : Bool}
    (h : w.uninstallSkillFromAgent transactionId skillId agentProfileId commits cut = some w') :
    ∃ row profile result machine,
      w.store.deployments.get? (skillId, agentProfileId) = some row ∧
      (Uninstall.uninstallSkillFromAgent commits transactionId
        (w.uninstallation transactionId profile row commits).request).runUntil cut
          (w.uninstallation transactionId profile row commits).start = some (result, machine) ∧
      w.removals transactionId = .unused ∧
      w' = w.putMachine transactionId (components row.targetPath) machine
        { w.store with deployments := w.store.deployments.erase (skillId, agentProfileId) } false
        (w.sites (components row.targetPath)).deployed := by
  unfold uninstallSkillFromAgent at h
  split at h
  case h_2 => cases h
  case h_1 row profile hrow hprofile =>
    split at h
    case isFalse => cases h
    case isTrue hguard =>
      obtain ⟨machine, hmachine, rfl⟩ := Option.map_eq_some_iff.mp h
      obtain ⟨⟨result, machine⟩, hrun, rfl⟩ := Option.map_eq_some_iff.mp hmachine
      have hkey : row.key = (skillId, agentProfileId) := Table.key_of_get? hrow
      have hstart : w.machine transactionId (components row.targetPath) row.key =
          (w.uninstallation transactionId profile row commits).start := by
        simp [Desktop.machine, uninstallation, Uninstall.Uninstallation.start, hguard.2, Removal.unused,
          hkey, hrow]
      rw [hstart] at hrun
      refine ⟨row, profile, result, machine, hrow, hrun, hguard.2, ?_⟩
      simp [removeDeploymentCatalog, hrow, transactionally]

omit [DecidableEq ε] in
theorem JournalsMatch.uninstallRecorded (h : JournalsMatch w) {journal : Uninstall.UninstallJournal}
    (hread : w.uninstallJournal? transactionId = some journal) :
    ∃ file, (w.removals transactionId).journal = some file ∧
      Uninstall.readLatestJournal file = .ok journal ∧
      file.Since [] fun record ↦ record.targetPath = journal.targetPath := by
  obtain ⟨file, hfile, hread⟩ := Option.bind_eq_some_iff.mp hread
  rw [toOption_eq_some] at hread
  obtain ⟨target, hsince⟩ := h.removals transactionId file hfile
  have htarget : journal.targetPath = target := by
    rcases hsince.latest (Uninstall.readLatestJournal_eq_ok.mp hread) with hfirst | htarget
    · cases hfirst
    · exact htarget
  exact ⟨file, hfile, hread, htarget ▸ hsince⟩

theorem reconcileUninstall_spec (hmatch : JournalsMatch w)
    (h : w.reconcileUninstall transactionId cut = some w') :
    ∃ journal machine, w.uninstallJournal? transactionId = some journal ∧
      Uninstall.Reconciling (w.machine transactionId (components journal.targetPath)
        (journal.skillId, journal.agentProfileId)) machine ∧
      Uninstall.Closing journal (w.machine transactionId (components journal.targetPath)
        (journal.skillId, journal.agentProfileId)) machine ∧
      w' = w.putMachine transactionId (components journal.targetPath) machine w.store
        (w.removals transactionId).oldDeployed (w.removals transactionId).oldDeployed := by
  obtain ⟨journal, hjournal, h⟩ := Option.bind_eq_some_iff.mp h
  obtain ⟨⟨result, machine⟩, hrun, rfl⟩ := Option.map_eq_some_iff.mp h
  obtain ⟨file, hfile, hread, -⟩ := hmatch.uninstallRecorded hjournal
  obtain ⟨hreconciling, -⟩ := Procedure.Meets.runUntil (Uninstall.reconcile_meets _) hrun
  obtain ⟨hclosing, -⟩ := Procedure.Meets.runUntil (Uninstall.reconcile_closing hfile hread) hrun
  exact ⟨journal, machine, hjournal, hreconciling, hclosing, rfl⟩

/-! ## Journals -/

omit [DecidableEq ε] in
theorem activatedFile_opened (tx : Transaction ε) : Opened tx.request.targetPath tx.activatedFile := by
  have hopened : Opened tx.request.targetPath tx.preparedFile :=
    ⟨tx.journal .intent, rfl, ⟨[.record (tx.journal .prepared)], rfl, by simp [Line.record?]; rfl⟩, nofun⟩
  unfold Transaction.activatedFile
  split
  · exact (hopened.append rfl).append rfl
  · exact hopened.append rfl

/-- A deployment that is done or cut off has a journal about its target, if it has one. -/
theorem Deployed.recorded {tx : Transaction ε} {result : Option (Except DeploymentError DeploymentResult)}
    (h : Deployed w tx result w') :
    ∀ file, (w'.transits tx.transactionId).journal = some file →
      Begun tx.request.targetPath file ∨ Opened tx.request.targetPath file := by
  intro file hfile
  cases h with
  | done files hserved hremovable hfiles =>
    simp only [putDisk, Function.update_self, Option.some.injEq] at hfile
    exact .inr (hfile ▸ activatedFile_opened tx)
  | refused files left hserved hrefused hfiles =>
    simp only [putDisk, Function.update_self, Option.some.injEq] at hfile
    exact .inr (hfile ▸ activatedFile_opened tx)
  | givenUp hunserved =>
    simp only [putDisk, Function.update_self, Transaction.start, reduceCtorEq] at hfile
  | cutOff disk hshape hrecorded =>
    simp only [putDisk, Function.update_self] at hfile
    exact hrecorded file hfile

omit [DecidableEq ε] in
theorem JournalsMatch.of_transit (h : JournalsMatch w) (transactionId : String)
    (hremovals : w'.removals = w.removals)
    (hothers : ∀ transactionId', transactionId' ≠ transactionId →
      w'.transits transactionId' = w.transits transactionId')
    (hthis : ∀ file, (w'.transits transactionId).journal = some file →
      ∃ target, Begun target file ∨ Opened target file) : JournalsMatch w' := by
  constructor
  · intro transactionId' file hfile
    by_cases heq : transactionId' = transactionId
    · subst heq
      exact hthis file hfile
    · rw [hothers transactionId' heq] at hfile
      exact h.transits transactionId' file hfile
  · rw [hremovals]
    exact h.removals

omit [DecidableEq ε] in
theorem JournalsMatch.of_removal (h : JournalsMatch w) (transactionId : String)
    (htransits : w'.transits = w.transits)
    (hothers : ∀ transactionId', transactionId' ≠ transactionId →
      w'.removals transactionId' = w.removals transactionId')
    (hthis : ∀ file, (w'.removals transactionId).journal = some file →
      ∃ target, file.Since [] fun record : Uninstall.UninstallJournal ↦ record.targetPath = target) :
    JournalsMatch w' := by
  constructor
  · rw [htransits]
    exact h.transits
  · intro transactionId' file hfile
    by_cases heq : transactionId' = transactionId
    · subst heq
      exact hthis file hfile
    · rw [hothers transactionId' heq] at hfile
      exact h.removals transactionId' file hfile

theorem recordVerified_journalsMatch (h : JournalsMatch w) (blobs : Blobs ε) (result : DeploymentResult)
    (acknowledged : Bool) : JournalsMatch (w.recordVerified blobs result acknowledged) := by
  rcases recordVerified_spec w blobs result acknowledged with heq | ⟨store, record, -, -, heq | heq⟩
  · rw [heq]
    exact h
  · rw [heq]
    exact ⟨h.transits, h.removals⟩
  · rw [heq]
    refine h.of_transit result.transactionId rfl ?_ ?_
    · exact fun transactionId' hne ↦ Function.update_of_ne hne _ _
    · intro file hfile
      simp only [closeJournal, Function.update_self, reduceCtorEq] at hfile

theorem writeStore_spec {host : Host} {snapshots : String → Option (List ε)} {event : StoreEvent}
    (h : commandStep host snapshots w (.writeStore event) = some w') :
    ∃ store, replacesCatalog event = false ∧ eventStep host w.store event = some store ∧
      w' = { w with store } := by
  simp only [commandStep] at h
  split at h
  case isTrue => cases h
  case isFalse hevent =>
    obtain ⟨store, hstore, rfl⟩ := Option.map_eq_some_iff.mp h
    exact ⟨store, Bool.eq_false_iff.mpr hevent, hstore, rfl⟩

theorem commandStep_journalsMatch {host : Host} {snapshots : String → Option (List ε)}
    {command : DesktopCommand ε} (hmatch : JournalsMatch w)
    (h : commandStep host snapshots w command = some w') : JournalsMatch w' := by
  cases command with
  | writeStore event =>
    obtain ⟨store, -, -, rfl⟩ := writeStore_spec h
    exact ⟨hmatch.transits, hmatch.removals⟩
  | upsertAgentProfile profile =>
    obtain ⟨agentProfiles, -, rfl⟩ := Option.map_eq_some_iff.mp h
    exact ⟨hmatch.transits, hmatch.removals⟩
  | editByHand path node =>
    cases h
    exact ⟨hmatch.transits, hmatch.removals⟩
  | deploySingle cache transactionId skillId agentProfileId cut commit =>
    obtain ⟨request, result, w₁, -, hunused, hrun, hdeployed, hend⟩ := deploySingle_spec h
    have hmatch₁ : JournalsMatch w₁ := by
      have hjournal := fun file hfile ↦ (⟨_, hdeployed.recorded file hfile⟩ :
        ∃ target, Begun target file ∨ Opened target file)
      obtain ⟨disk, reported, rfl⟩ := hdeployed.eq_putDisk
      exact hmatch.of_transit transactionId rfl (fun _ hne ↦ Function.update_of_ne hne _ _) hjournal
    rcases hend with ⟨reached, acknowledged, -, -, rfl⟩ | ⟨rfl, -⟩
    · exact recordVerified_journalsMatch hmatch₁ _ _ _
    · exact hmatch₁
  | recoverDeployment cache transactionId cut =>
    obtain ⟨journal, disk, reported, hjournal, hrecovers, rfl⟩ := recoverDeployment_spec hmatch h
    refine hmatch.of_transit transactionId rfl (fun _ hne ↦ Function.update_of_ne hne _ _) fun file hfile ↦ ?_
    have hfile : disk.journal = some file := by
      simpa only [putDisk, Function.update_self] using hfile
    rcases hrecovers.logged with hlogged | ⟨hsame, -⟩
    · exact ⟨journal.targetPath, hlogged.recorded file hfile⟩
    · exact hmatch.transits transactionId file (hsame.symm.trans hfile)
  | recordRecovered cache transactionId acknowledged =>
    obtain ⟨journal, -, h⟩ := Option.bind_eq_some_iff.mp h
    split at h
    · cases h
      exact recordVerified_journalsMatch hmatch _ _ _
    · cases h
  | uninstallSkillFromAgent transactionId skillId agentProfileId commits cut =>
    obtain ⟨row, profile, result, machine, -, hrun, -, rfl⟩ := uninstallSkillFromAgent_spec h
    refine hmatch.of_removal transactionId rfl (fun _ hne ↦ Function.update_of_ne hne _ _) fun file hfile ↦ ?_
    have hfile : machine.journal = some file := by
      simpa only [putMachine, Function.update_self] using hfile
    obtain ⟨hshape, -⟩ := Procedure.Meets.runUntil (Uninstall.uninstall_meets _) hrun
    exact ⟨_, hshape.leaves.1 file hfile⟩
  | reconcileUninstall transactionId cut =>
    obtain ⟨journal, machine, hjournal, hreconciling, -, rfl⟩ := reconcileUninstall_spec hmatch h
    refine hmatch.of_removal transactionId rfl (fun _ hne ↦ Function.update_of_ne hne _ _) fun file hfile ↦ ?_
    have hfile : machine.journal = some file := by
      simpa only [putMachine, Function.update_self] using hfile
    rcases hreconciling.journal with hsame | hclosed
    · exact hmatch.removals transactionId file (hsame.symm.trans hfile)
    · rw [hclosed] at hfile
      cases hfile

/-! ## What is inside and around a path -/

section Stir

variable (w) (path : Location) (byHand : Bool) (wake : Wake ε)

@[simp]
theorem stir_transit_journal (transactionId : String) :
    ((w.stir path byHand wake).transits transactionId).journal =
      (w.transits transactionId).journal := by
  unfold stir
  dsimp only
  split <;> rfl

@[simp]
theorem stir_removal_journal (transactionId : String) :
    ((w.stir path byHand wake).removals transactionId).journal =
      (w.removals transactionId).journal := by
  unfold stir
  dsimp only
  split <;> rfl

theorem stir_sites_of_not_nested {path' : Location} (h : ¬ Nested path path') :
    (w.stir path byHand wake).sites path' = w.sites path' := if_neg h

theorem stir_sites_of_nested {path' : Location} (h : Nested path path') :
    (w.stir path byHand wake).sites path' =
      (w.sites path').follow (wake.sites path') byHand := if_pos h

/-- A transaction that has not begun has nothing inside the path. -/
theorem stir_unused {transactionId : String} (h : w.transits transactionId = .unused) :
    (w.stir path byHand wake).transits transactionId = .unused := by
  have hjournal : w.journal? transactionId = none := by
    simp [journal?, h, Transit.unused]
  unfold stir
  dsimp only
  rw [hjournal]
  exact h

theorem stir_unused_removal {transactionId : String} (h : w.removals transactionId = .unused) :
    (w.stir path byHand wake).removals transactionId = .unused := by
  have hjournal : w.uninstallJournal? transactionId = none := by
    simp [uninstallJournal?, h, Removal.unused]
  unfold stir
  dsimp only
  rw [hjournal]
  exact h

variable {w} in
theorem JournalsMatch.stir (hmatch : JournalsMatch w) :
    JournalsMatch (w.stir path byHand wake) := by
  constructor
  · intro transactionId file hfile
    rw [stir_transit_journal] at hfile
    exact hmatch.transits transactionId file hfile
  · intro transactionId file hfile
    rw [stir_removal_journal] at hfile
    exact hmatch.removals transactionId file hfile

end Stir

/-- What is inside and around the path of a command changes with it. -/
theorem desktopStep_spec {host : Host} {snapshots : String → Option (List ε)}
    {action : DesktopAction ε} (h : desktopStep host snapshots w action = some w') :
    ∃ w₁, commandStep host snapshots w action.command = some w₁ ∧
      ((action.command.place w = none ∧ w' = w₁) ∨
        ∃ path, action.command.place w = some path ∧
          w' = w₁.stir path action.command.byHand action.wake) := by
  obtain ⟨w₁, hcommand, rfl⟩ := Option.map_eq_some_iff.mp h
  refine ⟨w₁, hcommand, ?_⟩
  cases hplace : action.command.place w with
  | none => exact .inl ⟨rfl, rfl⟩
  | some path => exact .inr ⟨path, rfl, rfl⟩

/-- What a command leaves and a change around it does not disturb holds after the step. -/
theorem desktopStep_preserves {host : Host} {snapshots : String → Option (List ε)}
    {action : DesktopAction ε} {P : Desktop ε → Prop}
    (hstir : ∀ w path byHand wake, P w → P (w.stir path byHand wake))
    (hcommand : ∀ w₁, commandStep host snapshots w action.command = some w₁ → P w₁)
    (h : desktopStep host snapshots w action = some w') : P w' := by
  obtain ⟨w₁, hstep, ⟨-, rfl⟩ | ⟨path, -, rfl⟩⟩ := desktopStep_spec h
  · exact hcommand _ hstep
  · exact hstir _ _ _ _ (hcommand w₁ hstep)

/-- Every step leaves journals about one target each. -/
theorem desktopStep_journalsMatch {host : Host} {snapshots : String → Option (List ε)}
    {action : DesktopAction ε} (hmatch : JournalsMatch w)
    (h : desktopStep host snapshots w action = some w') : JournalsMatch w' :=
  desktopStep_preserves (fun _ path byHand wake hmatch ↦ hmatch.stir path byHand wake)
    (fun _ hstep ↦ commandStep_journalsMatch hmatch hstep) h

end Desktop

end Deployment

end SkillHive
