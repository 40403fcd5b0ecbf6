import SkillHive.Deployment.DesktopSteps
import SkillHive.LocalStore.LocalWork

/-!
# Targets that skills share

The catalog is keyed by skill and agent, and the files stand at a path that ends in the slug of the
skill. Nothing keeps the slugs of two skills apart, or the skill root of one agent out of a target of
another, and neither `deploy` nor an uninstall asks the catalog whose files it finds. As long as no
step takes a target that an installed row guards, or works inside or around one, every installed row
has its snapshot to itself.
-/

namespace SkillHive

open Foundation LocalStore

namespace Deployment

variable {ε : Type} [DecidableEq ε]

/-- The target of an installed row holds its snapshot unless the user has edited it, and no other
installed row has this target. -/
structure Exclusive (snapshots : String → Option (List ε)) (w : Desktop ε) : Prop where
  holds : ∀ row ∈ w.store.deployments, row.state = .installed →
    (w.sites (components row.targetPath)).edited = true ∨
      ∃ files, snapshots row.deployedBlobHash = some files ∧
        (w.sites (components row.targetPath)).node = some (.snapshot files)
  sole : ∀ row ∈ w.store.deployments, ∀ row' ∈ w.store.deployments,
    row.state = .installed → row'.state = .installed →
      components row.targetPath = components row'.targetPath → row = row'

/-- The row that a command deploys or uninstalls. -/
def actingKey (w : Desktop ε) : DesktopCommand ε → Option (String × String)
  | .deploySingle _ _ skillId agentProfileId .. => some (skillId, agentProfileId)
  | .uninstallSkillFromAgent _ skillId agentProfileId .. => some (skillId, agentProfileId)
  | .recoverDeployment _ transactionId _ =>
    (w.journal? transactionId).map fun journal ↦ (journal.skillId, journal.agentProfileId)
  | .recordRecovered _ transactionId _ =>
    (w.journal? transactionId).map fun journal ↦ (journal.skillId, journal.agentProfileId)
  | .reconcileUninstall transactionId _ =>
    (w.uninstallJournal? transactionId).map fun journal ↦ (journal.skillId, journal.agentProfileId)
  | _ => none

/-- What there is at the targets of the installed rows of other skills stays. -/
def SparesTargets (w w' : Desktop ε) (skillId : String) : Prop :=
  ∀ row ∈ w.store.deployments, row.state = .installed → row.skillId ≠ skillId →
    (w.sites (components row.targetPath)).node.isSome →
      (w'.sites (components row.targetPath)).node = (w.sites (components row.targetPath)).node

/-- The step neither overwrites nor removes the files of another skill. -/
def SparesOthers (host : Host) (snapshots : String → Option (List ε)) (w : Desktop ε)
    (action : DesktopAction ε) : Prop :=
  ∀ w', desktopStep host snapshots w action = some w' → ∀ key ∈ actingKey w action.command,
    SparesTargets w w' key.1

/-! ## When steps keep targets apart -/

/-- The installed rows that stand in the way of a step for this skill and this agent: those of
others at the path, and its own one there unless the user has edited the path. -/
def Desktop.guards (w : Desktop ε) (key : String × String) (path : Location) :
    List SkillDeployment :=
  w.store.deployments.rows.filter fun row ↦ row.state = .installed ∧
    components row.targetPath = path ∧ (row.key = key → (w.sites path).edited = false)

/-- The installed rows whose targets are inside or around a path, apart from the row of the step if
the user has edited its target. -/
def Desktop.entangled (w : Desktop ε) (key : String × String) (path : Location) :
    List SkillDeployment :=
  w.store.deployments.rows.filter fun row ↦ row.state = .installed ∧
    Nested path (components row.targetPath) ∧
      (row.key = key → (w.sites (components row.targetPath)).edited = false)

/-- The command replaces its own row: nothing stops the deployment, and the catalog records it. -/
def Redeploys (snapshots : String → Option (List ε)) (w : Desktop ε) : DesktopCommand ε → Prop
  | .deploySingle cache transactionId skillId agentProfileId cut commit =>
    cut.isNone ∧ commit.isSome ∧
      ∀ request ∈ (deploymentRequest w.store w.agentProfiles skillId agentProfileId).toOption,
        (w.transaction (cache.blobs snapshots) transactionId request).Served ∧
          (w.transaction (cache.blobs snapshots) transactionId request).Removable
  | _ => False

instance decidableRedeploys (snapshots : String → Option (List ε)) (w : Desktop ε) :
    ∀ command, Decidable (Redeploys snapshots w command)
  | .deploySingle .. => inferInstanceAs (Decidable (_ ∧ _ ∧ ∀ request ∈ Except.toOption _, _))
  | .uninstallSkillFromAgent .. => .isFalse id
  | .recoverDeployment .. => .isFalse id
  | .recordRecovered .. => .isFalse id
  | .writeStore _ => .isFalse id
  | .upsertAgentProfile _ => .isFalse id
  | .editByHand .. => .isFalse id
  | .reconcileUninstall .. => .isFalse id

/-- A command that changes what is at a path finds no guard there, or only the row that it replaces
or removes. -/
def KeepsTargets (snapshots : String → Option (List ε)) (w : Desktop ε) : DesktopCommand ε → Prop
  | .deploySingle cache transactionId skillId agentProfileId cut commit =>
    ∀ request ∈ (deploymentRequest w.store w.agentProfiles skillId agentProfileId).toOption,
      (w.transaction (cache.blobs snapshots) transactionId request).Served →
        Procedure.reaches 4 cut = true →
          ∀ row ∈ w.guards (skillId, agentProfileId) (components request.targetPath),
            row.key = (skillId, agentProfileId) ∧
              Redeploys snapshots w
                (.deploySingle cache transactionId skillId agentProfileId cut commit)
  | .uninstallSkillFromAgent _ skillId agentProfileId commits cut =>
    ∀ deployed ∈ w.store.deployments.get? (skillId, agentProfileId),
      (w.sites (components deployed.targetPath)).node.isSome →
        Uninstall.takesTarget commits cut = true →
          ∀ row ∈ w.guards (skillId, agentProfileId) (components deployed.targetPath),
            row.key = (skillId, agentProfileId) ∧ Procedure.reaches 4 cut = true
  | .recoverDeployment cache transactionId _ =>
    ∀ journal ∈ w.journal? transactionId,
      Undoes (cache.blobs snapshots) journal
          (w.disk transactionId (components journal.targetPath)) →
        w.guards (journal.skillId, journal.agentProfileId) (components journal.targetPath) = []
  | .recordRecovered cache transactionId _ =>
    ∀ journal ∈ w.journal? transactionId,
      (cache.blobs snapshots).verifies journal.snapshotHash
          (w.sites (components journal.targetPath)).node = true →
        (recordDeployment w.store w.agentProfiles journal.result.record).toOption.isSome →
          ∀ row ∈ w.guards (journal.skillId, journal.agentProfileId) (components journal.targetPath),
            row.key = (journal.skillId, journal.agentProfileId)
  | _ => True

instance decidableKeepsTargets (snapshots : String → Option (List ε)) (w : Desktop ε) :
    ∀ command, Decidable (KeepsTargets snapshots w command)
  | .deploySingle .. => inferInstanceAs (Decidable (∀ request ∈ Except.toOption _, _ → _ → _))
  | .uninstallSkillFromAgent .. => inferInstanceAs (Decidable (∀ deployed ∈ Table.get? _ _, _ → _ → _))
  | .recoverDeployment .. => inferInstanceAs (Decidable (∀ journal ∈ Desktop.journal? _ _, _ → _))
  | .recordRecovered .. => inferInstanceAs (Decidable (∀ journal ∈ Desktop.journal? _ _, _ → _ → _))
  | .writeStore _ => .isTrue trivial
  | .upsertAgentProfile _ => .isTrue trivial
  | .editByHand .. => .isTrue trivial
  | .reconcileUninstall .. => .isTrue trivial

/-- No installed row has its target inside or around the path of the command, apart from the row
that the command replaces. -/
def Untangled (snapshots : String → Option (List ε)) (w : Desktop ε) (command : DesktopCommand ε) :
    Prop :=
  ∀ path ∈ command.place w, ∀ key ∈ actingKey w command, ∀ row ∈ w.entangled key path,
    row.key = key ∧ Redeploys snapshots w command

instance (snapshots : String → Option (List ε)) (w : Desktop ε) (command : DesktopCommand ε) :
    Decidable (Untangled snapshots w command) :=
  inferInstanceAs (Decidable (∀ path ∈ command.place w, ∀ key ∈ actingKey w command, _))

/-- No installed row is in the way of the step, at its path or inside or around it. -/
def KeepsApart (snapshots : String → Option (List ε)) (w : Desktop ε) (action : DesktopAction ε) :
    Prop :=
  KeepsTargets snapshots w action.command ∧ Untangled snapshots w action.command

instance (snapshots : String → Option (List ε)) (w : Desktop ε) (action : DesktopAction ε) :
    Decidable (KeepsApart snapshots w action) := inferInstanceAs (Decidable (_ ∧ _))

variable {snapshots : String → Option (List ε)} {w w' : Desktop ε} {key : String × String}
  {path : Location}

omit [DecidableEq ε] in
theorem Desktop.mem_guards {row : SkillDeployment} :
    row ∈ w.guards key path ↔ row ∈ w.store.deployments ∧ row.state = .installed ∧
      components row.targetPath = path ∧ (row.key = key → (w.sites path).edited = false) := by
  simp only [guards, Table.mem_iff_mem_rows, List.mem_filter, decide_eq_true_eq]

omit [DecidableEq ε] in
theorem Desktop.mem_entangled {row : SkillDeployment} :
    row ∈ w.entangled key path ↔ row ∈ w.store.deployments ∧ row.state = .installed ∧
      Nested path (components row.targetPath) ∧
        (row.key = key → (w.sites (components row.targetPath)).edited = false) := by
  simp only [entangled, Table.mem_iff_mem_rows, List.mem_filter, decide_eq_true_eq]

/-! ## Steps that change one path -/

/-- The step changes one path at most, and what is there only if the installed rows allow it. -/
structure Moves (w w' : Desktop ε) (key : String × String) (path : Location) : Prop where
  others : ∀ path', path' ≠ path → w'.sites path' = w.sites path'
  edited : (w'.sites path).edited = (w.sites path).edited
  rows : ∀ row ∈ w'.store.deployments, row.state = .installed → row ∈ w.store.deployments
  spared : (w'.sites path).node = (w.sites path).node ∨ (w.sites path).node = none ∨
    ∀ row ∈ w.guards key path, row.key = key ∧ row ∉ w'.store.deployments

omit [DecidableEq ε] in
theorem Moves.exclusive (hmoves : Moves w w' key path) (h : Exclusive snapshots w) :
    Exclusive snapshots w' := by
  constructor
  · intro row hrow hinstalled
    have hbefore := hmoves.rows row hrow hinstalled
    by_cases hpath : components row.targetPath = path
    · subst hpath
      rw [hmoves.edited]
      rcases h.holds row hbefore hinstalled with hedited | ⟨files, hfiles, hnode⟩
      · exact .inl hedited
      · rcases hmoves.spared with hsame | hnone | hguards
        · exact .inr ⟨files, hfiles, hsame.trans hnode⟩
        · cases hnode.symm.trans hnone
        · by_contra hunedited
          have hguard : row ∈ w.guards key (components row.targetPath) := by
            refine Desktop.mem_guards.mpr ⟨hbefore, hinstalled, rfl, fun _ ↦ ?_⟩
            exact Bool.eq_false_iff.mpr (not_or.mp hunedited).1
          exact (hguards row hguard).2 hrow
    · rw [hmoves.others _ hpath]
      exact h.holds row hbefore hinstalled
  · intro row hrow row' hrow' hinstalled hinstalled'
    exact h.sole row (hmoves.rows row hrow hinstalled) row' (hmoves.rows row' hrow' hinstalled')
      hinstalled hinstalled'

omit [DecidableEq ε] in
theorem Moves.spares (hmoves : Moves w w' key path) : SparesTargets w w' key.1 := by
  intro row hrow hinstalled hother hthere
  by_cases hpath : components row.targetPath = path
  · subst hpath
    have hkey : row.key ≠ key := fun heq ↦ hother (congrArg Prod.fst heq)
    rcases hmoves.spared with hsame | hnone | hguards
    · exact hsame
    · rw [hnone] at hthere
      cases hthere
    · have hguard : row ∈ w.guards key (components row.targetPath) :=
        Desktop.mem_guards.mpr ⟨hrow, hinstalled, rfl, fun heq ↦ absurd heq hkey⟩
      exact absurd (hguards row hguard).1 hkey
  · rw [hmoves.others _ hpath]

/-! ## Deployments -/

/-- The rows apart from the one of this key. -/
def Desktop.withoutRow (w : Desktop ε) (key : String × String) : Desktop ε :=
  { w with store := { w.store with deployments := w.store.deployments.erase key } }

omit [DecidableEq ε] in
theorem Desktop.mem_withoutRow {row : SkillDeployment} :
    row ∈ (w.withoutRow key).store.deployments ↔ row ∈ w.store.deployments ∧ row.key ≠ key :=
  Table.mem_erase

omit [DecidableEq ε] in
/-- The catalog records what is at a path where no other row stands. -/
theorem recorded_exclusive {record : RecordDeployment} {files : List ε}
    (h : Exclusive snapshots (w.withoutRow record.row.key))
    (hfiles : snapshots record.deployedBlobHash = some files)
    (hnode : (w.sites (components record.targetPath)).node = some (.snapshot files))
    (hfree : ∀ row ∈ (w.withoutRow record.row.key).store.deployments, row.state = .installed →
      components row.targetPath ≠ components record.targetPath) :
    Exclusive snapshots (w.recorded
      { w.store with deployments := w.store.deployments.put record.row }
      (components record.targetPath)) := by
  have hcases : ∀ row ∈ w.store.deployments.put record.row,
      row = record.row ∨ row ∈ (w.withoutRow record.row.key).store.deployments :=
    fun row hrow ↦ (Table.mem_put.mp hrow).imp id Desktop.mem_withoutRow.mpr
  constructor
  · intro row hrow hinstalled
    rcases hcases row hrow with rfl | hrow
    · refine .inr ⟨files, hfiles, ?_⟩
      rw [← hnode]
      simp [Desktop.recorded, RecordDeployment.row]
    · have hsite : (w.recorded { w.store with deployments := w.store.deployments.put record.row }
          (components record.targetPath)).sites (components row.targetPath) =
            w.sites (components row.targetPath) :=
        Function.update_of_ne (hfree row hrow hinstalled) _ _
      rw [hsite]
      exact h.holds row hrow hinstalled
  · intro row hrow row' hrow' hinstalled hinstalled' hpath
    rcases hcases row hrow with rfl | hrow <;> rcases hcases row' hrow' with rfl | hrow'
    · rfl
    · exact absurd hpath.symm (hfree row' hrow' hinstalled')
    · exact absurd hpath (hfree row hrow hinstalled)
    · exact h.sole row hrow row' hrow' hinstalled hinstalled' hpath

omit [DecidableEq ε] in
theorem closeJournal_exclusive {transactionId : String} (h : Exclusive snapshots w) :
    Exclusive snapshots (w.closeJournal transactionId) := ⟨h.holds, h.sole⟩

theorem putDisk_moves {transactionId : String} {disk : Disk ε} {reported arrived oldDeployed : Bool}
    (hspared : disk.destination = (w.sites path).node ∨ (w.sites path).node = none ∨
      w.guards key path = []) :
    Moves w (w.putDisk transactionId path disk reported arrived oldDeployed) key path where
  others path' hne := w.putDisk_sites_of_ne hne
  edited := w.putDisk_edited
  rows row hrow _ := hrow
  spared := by
    refine hspared.imp (w.putDisk_node).trans (.imp id fun hguards row hrow ↦ ?_)
    rw [hguards] at hrow
    cases hrow

omit [DecidableEq ε] in
/-- The cache has the files that the hash stands for. -/
theorem snapshots_of_manifest {cache : BlobCache} {hash : String} {files : List ε}
    (h : (cache.blobs snapshots).manifest hash = some files) : snapshots hash = some files := by
  unfold BlobCache.blobs at h
  dsimp only at h
  split at h
  · exact h
  · cases h

omit [DecidableEq ε] in
theorem recorded_spares {skillId : String} {store : LocalStore} (path : Location)
    (h : SparesTargets w w' skillId) : SparesTargets w (w'.recorded store path) skillId := by
  intro row hrow hinstalled hother hthere
  rw [← h row hrow hinstalled hother hthere]
  unfold Desktop.recorded
  by_cases hpath : components row.targetPath = path
  · subst hpath
    simp
  · simp [hpath]

/-- A path without a guard of another row is recorded for the row that is put there. -/
theorem recordVerified_exclusive {cache : BlobCache} {result : DeploymentResult} {store : LocalStore}
    {record : SkillDeploymentRecord} {skillId : String} (acknowledged : Bool)
    (hverified : (cache.blobs snapshots).verifies result.snapshotHash
      (w.sites (components result.targetPath)).node = true)
    (hrecord : recordDeployment w.store w.agentProfiles result.record = .ok (store, record))
    (hfree : ∀ row ∈ (w.withoutRow result.record.row.key).store.deployments,
      row.state = .installed → components row.targetPath ≠ components result.targetPath)
    (hexclusive : Exclusive snapshots (w.withoutRow result.record.row.key))
    (hspares : SparesTargets w' w skillId) :
    Exclusive snapshots (w.recordVerified (cache.blobs snapshots) result acknowledged) ∧
      SparesTargets w' (w.recordVerified (cache.blobs snapshots) result acknowledged) skillId := by
  obtain ⟨files, hmanifest, hnode⟩ := Desktop.verifies_iff.mp hverified
  have hrecorded : Exclusive snapshots (w.recorded store (components result.targetPath)) :=
    recordDeployment_spec hrecord ▸
      recorded_exclusive hexclusive (snapshots_of_manifest hmanifest) hnode hfree
  have hsites : SparesTargets w' (w.recorded store (components result.targetPath)) skillId :=
    recorded_spares _ hspares
  rcases Desktop.recordVerified_ok hverified hrecord acknowledged with heq | heq
  · exact heq ▸ ⟨hrecorded, hsites⟩
  · exact heq ▸ ⟨closeJournal_exclusive hrecorded, hsites⟩

/-- A deployment that is done replaces its own row. -/
theorem deployed_exclusive {cache : BlobCache} {transactionId skillId agentProfileId : String}
    {request : DeploymentRequest} {files : List ε} (acknowledged : Bool)
    (hrequest : deploymentRequest w.store w.agentProfiles skillId agentProfileId = .ok request)
    (hfiles : (w.transaction (cache.blobs snapshots) transactionId request).files? = some files)
    (hown : ∀ row ∈ w.guards (skillId, agentProfileId) (components request.targetPath),
      row.key = (skillId, agentProfileId))
    (hmoves : Moves w (w'.withoutRow (skillId, agentProfileId)) (skillId, agentProfileId)
      (components request.targetPath))
    (hnode : (w'.sites (components request.targetPath)).node = some (.snapshot files))
    (hstore : w'.store = w.store) (hprofiles : w'.agentProfiles = w.agentProfiles)
    (h : Exclusive snapshots w) :
    Exclusive snapshots (w'.recordVerified (cache.blobs snapshots)
        ((w.transaction (cache.blobs snapshots) transactionId request).journal .intent).result
        acknowledged) ∧
      SparesTargets w (w'.recordVerified (cache.blobs snapshots)
        ((w.transaction (cache.blobs snapshots) transactionId request).journal .intent).result
        acknowledged) skillId := by
  have hrecord : ∃ record, recordDeployment w.store w.agentProfiles
      ((w.transaction (cache.blobs snapshots) transactionId request).journal .intent).result.record =
        .ok (_, record) := recordDeployment_of_request hrequest rfl rfl rfl rfl
  obtain ⟨record, hrecord⟩ := hrecord
  obtain ⟨skill, profile, -, -, -, -, rfl⟩ := deploymentRequest_spec hrequest
  rw [← hstore, ← hprofiles] at hrecord
  refine recordVerified_exclusive acknowledged (Desktop.verifies_iff.mpr ⟨files, hfiles, hnode⟩)
    hrecord ?_ (hmoves.exclusive h) hmoves.spares
  intro row hrow hinstalled hpath
  obtain ⟨hrow, hkey⟩ := Desktop.mem_withoutRow.mp hrow
  rw [hstore] at hrow
  have hguard : row ∈ w.guards (skillId, agentProfileId) (components row.targetPath) :=
    Desktop.mem_guards.mpr ⟨hrow, hinstalled, rfl, fun heq ↦ absurd heq hkey⟩
  rw [hpath] at hguard
  exact hkey (hown row hguard)

theorem deploySingle_apart {cache : BlobCache} {transactionId skillId agentProfileId : String}
    {cut : Option (ℕ × Point ε)} {commit : Option Bool}
    (hcondition : KeepsTargets snapshots w
      (.deploySingle cache transactionId skillId agentProfileId cut commit))
    (hstep : w.deploySingle (cache.blobs snapshots) transactionId skillId agentProfileId cut commit =
      some w') (h : Exclusive snapshots w) :
    Exclusive snapshots w' ∧ SparesTargets w w' skillId := by
  obtain ⟨request, result, w₁, hrequest, hunused, hrun, hdeployed, hend⟩ :=
    Desktop.deploySingle_spec hstep
  have hended := Desktop.runDeploy_isSome hrun
  have hnode := Desktop.runDeploy_node hunused hrun
  have hguards := hcondition request (toOption_eq_some.mpr hrequest)
  have hothers : (∀ path', path' ≠ components request.targetPath → w₁.sites path' = w.sites path') ∧
      (w₁.sites (components request.targetPath)).edited =
        (w.sites (components request.targetPath)).edited := by
    obtain ⟨disk, reported, rfl⟩ := hdeployed.eq_putDisk
    exact ⟨fun path' hne ↦ w.putDisk_sites_of_ne hne, w.putDisk_edited⟩
  have hmoves : (w₁.sites (components request.targetPath)).node =
      (w.sites (components request.targetPath)).node ∨
        w.guards (skillId, agentProfileId) (components request.targetPath) = [] →
      Moves w w₁ (skillId, agentProfileId) (components request.targetPath) := by
    intro hspared
    obtain ⟨disk, reported, rfl⟩ := hdeployed.eq_putDisk
    exact putDisk_moves (hspared.imp (w.putDisk_node).symm.trans .inr)
  by_cases hreached : (w.transaction (cache.blobs snapshots) transactionId request).Served ∧
      Procedure.reaches 4 cut = true
  · by_cases hdone : Redeploys snapshots w
        (.deploySingle cache transactionId skillId agentProfileId cut commit)
    · obtain ⟨ended, hresult⟩ := Option.isSome_iff_exists.mp
        (hended.mpr (Option.isNone_iff_eq_none.mp hdone.1))
      cases hdeployed with
      | givenUp hunserved => exact absurd hreached.1 hunserved
      | refused files left hserved hrefused hfiles =>
        exact absurd (hdone.2.2 request (toOption_eq_some.mpr hrequest)).2 hrefused
      | cutOff disk hshape hrecorded => cases hresult
      | done files hserved hremovable hfiles =>
        rcases hend with ⟨reached, acknowledged, ⟨⟩, -, rfl⟩ | ⟨-, hlost⟩
        · refine deployed_exclusive acknowledged hrequest hfiles ?_ ?_ (Desktop.putDisk_node w) rfl rfl h
          · exact fun row hrow ↦ (hguards hreached.1 hreached.2 row hrow).1
          · refine ⟨hothers.1, hothers.2, ?_, .inr (.inr ?_)⟩
            · exact fun row hrow _ ↦ (Desktop.mem_withoutRow.mp hrow).1
            · intro row hrow
              have hkey := (hguards hreached.1 hreached.2 row hrow).1
              exact ⟨hkey, fun hstill ↦ (Desktop.mem_withoutRow.mp hstill).2 hkey⟩
        · have hcommit := hdone.2.1
          rw [hlost _ rfl] at hcommit
          cases hcommit
    · -- no installed row is in the way
      have hfree : w.guards (skillId, agentProfileId) (components request.targetPath) = [] :=
        List.eq_nil_iff_forall_not_mem.mpr fun row hrow ↦
          hdone (hguards hreached.1 hreached.2 row hrow).2
      rcases hend with ⟨reached, acknowledged, rfl, rfl, -⟩ | ⟨rfl, -⟩
      · cases hdeployed with
        | done files hserved hremovable hfiles =>
          refine absurd ⟨Option.isNone_iff_eq_none.mpr (hended.mp rfl), rfl, ?_⟩ hdone
          intro request' hrequest'
          cases hrequest.symm.trans (toOption_eq_some.mp hrequest')
          exact ⟨hserved, hremovable⟩
      · exact ⟨(hmoves (.inr hfree)).exclusive h, (hmoves (.inr hfree)).spares⟩
  · -- the target is as it was
    have hkept := hmoves (.inl (hnode hreached))
    rcases hend with ⟨reached, acknowledged, rfl, rfl, -⟩ | ⟨rfl, -⟩
    · cases hdeployed with
      | done files hserved hremovable hfiles =>
        exact absurd ⟨hserved, by rw [hended.mp rfl]; rfl⟩ hreached
    · exact ⟨hkept.exclusive h, hkept.spares⟩

/-! ## Other steps -/

theorem recoverDeployment_apart {cache : BlobCache} {transactionId : String}
    {cut : Option (ℕ × Point ε)} (hmatch : w.JournalsMatch)
    (hcondition : KeepsTargets snapshots w (.recoverDeployment cache transactionId cut))
    (hstep : w.recoverDeployment (cache.blobs snapshots) transactionId cut = some w')
    (h : Exclusive snapshots w) :
    Exclusive snapshots w' ∧
      ∀ key ∈ actingKey w (.recoverDeployment cache transactionId cut), SparesTargets w w' key.1 := by
  obtain ⟨journal, disk, reported, hjournal, hrecovers, rfl⟩ :=
    Desktop.recoverDeployment_spec hmatch hstep
  have hmoves : Moves w (w.putDisk transactionId (components journal.targetPath) disk reported
      (disk.journal.isSome || (w.transits transactionId).oldDeployed)
      (w.transits transactionId).oldDeployed) (journal.skillId, journal.agentProfileId)
      (components journal.targetPath) :=
    putDisk_moves (hrecovers.decided.target.imp id (.imp id (hcondition journal hjournal)))
  refine ⟨hmoves.exclusive h, fun key hkey ↦ ?_⟩
  obtain ⟨_, hjournal', rfl⟩ := Option.map_eq_some_iff.mp hkey
  cases hjournal.symm.trans hjournal'
  exact hmoves.spares

theorem recordRecovered_apart {cache : BlobCache} {transactionId : String} {acknowledged : Bool}
    (hcondition : KeepsTargets snapshots w (.recordRecovered cache transactionId acknowledged))
    (hstep : w.recordRecovered (cache.blobs snapshots) transactionId acknowledged = some w')
    (h : Exclusive snapshots w) (skillId : String) :
    Exclusive snapshots w' ∧ SparesTargets w w' skillId := by
  obtain ⟨journal, hjournal, hstep⟩ := Option.bind_eq_some_iff.mp hstep
  have hsame : SparesTargets w w skillId := fun _ _ _ _ _ ↦ rfl
  split at hstep
  case isFalse => cases hstep
  case isTrue =>
    cases hstep
    rcases w.recordVerified_spec (cache.blobs snapshots) journal.result acknowledged with
      heq | ⟨store, record, hverified, hrecord, -⟩
    · rw [heq]
      exact ⟨h, hsame⟩
    · refine recordVerified_exclusive acknowledged hverified hrecord ?_ ?_ hsame
      · intro row hrow hinstalled hpath
        obtain ⟨hrow, hkey⟩ := Desktop.mem_withoutRow.mp hrow
        refine hkey (hcondition journal hjournal hverified (by rw [hrecord]; rfl) row ?_)
        exact Desktop.mem_guards.mpr ⟨hrow, hinstalled, hpath, fun heq ↦ absurd heq hkey⟩
      · constructor
        · exact fun row hrow ↦ h.holds row (Desktop.mem_withoutRow.mp hrow).1
        · exact fun row hrow row' hrow' ↦
            h.sole row (Desktop.mem_withoutRow.mp hrow).1 row' (Desktop.mem_withoutRow.mp hrow').1

theorem putMachine_moves {transactionId : String} {machine : Uninstall.Machine ε}
    {removed : LocalStore} {arrived oldDeployed : Bool}
    (hrows : ∀ row ∈ removed.deployments, row ∈ w.store.deployments)
    (hspared : machine.target = (w.sites path).node ∨ (w.sites path).node = none ∨
      ∀ row ∈ w.guards key path, row.key = key ∧ machine.installed = false ∧
        row ∉ removed.deployments) :
    Moves w (w.putMachine transactionId path machine removed arrived oldDeployed) key path where
  others path' hne := w.putMachine_sites_of_ne hne
  edited := w.putMachine_edited
  rows row hrow _ := by
    unfold Desktop.putMachine at hrow
    dsimp only at hrow
    split at hrow
    · exact hrow
    · exact hrows row hrow
  spared := by
    refine hspared.imp (w.putMachine_node).trans (.imp id fun hguards row hrow ↦ ?_)
    obtain ⟨hkey, hremoved, hgone⟩ := hguards row hrow
    refine ⟨hkey, ?_⟩
    unfold Desktop.putMachine
    dsimp only
    rwa [if_neg (by rw [hremoved]; exact Bool.false_ne_true)]

theorem uninstallSkillFromAgent_apart {transactionId skillId agentProfileId : String} {commits : Bool}
    {cut : Option (ℕ × Point ε)}
    (hcondition : KeepsTargets snapshots w
      (.uninstallSkillFromAgent transactionId skillId agentProfileId commits cut))
    (hstep : w.uninstallSkillFromAgent transactionId skillId agentProfileId commits cut = some w')
    (h : Exclusive snapshots w) : Exclusive snapshots w' ∧ SparesTargets w w' skillId := by
  obtain ⟨row, profile, result, machine, hrow, hrun, -, rfl⟩ :=
    Desktop.uninstallSkillFromAgent_spec hstep
  have hmoves : Moves w (w.putMachine transactionId (components row.targetPath) machine
      { w.store with deployments := w.store.deployments.erase (skillId, agentProfileId) } false
      (w.sites (components row.targetPath)).deployed) (skillId, agentProfileId)
      (components row.targetPath) := by
    refine putMachine_moves (fun row hrow ↦ (Table.mem_erase.mp hrow).1) ?_
    by_cases hthere : (w.sites (components row.targetPath)).node.isSome
    case neg => exact .inr (.inl (Option.not_isSome_iff_eq_none.mp hthere))
    cases htakes : Uninstall.takesTarget commits cut with
    | false => exact .inl (Uninstall.uninstall_keeps hthere hrun htakes).1
    | true =>
      refine .inr (.inr fun guard hguard ↦ ?_)
      obtain ⟨hkey, hlate⟩ := hcondition row hrow hthere htakes guard hguard
      refine ⟨hkey, Uninstall.uninstall_removes hthere hrun htakes hlate, ?_⟩
      exact fun hstill ↦ (Table.mem_erase.mp hstill).2 hkey
  exact ⟨hmoves.exclusive h, hmoves.spares⟩

theorem reconcileUninstall_apart {transactionId : String} {cut : Option (ℕ × Point ε)}
    (hmatch : w.JournalsMatch) (hstep : w.reconcileUninstall transactionId cut = some w')
    (h : Exclusive snapshots w) :
    Exclusive snapshots w' ∧
      ∀ key ∈ actingKey w (.reconcileUninstall transactionId cut), SparesTargets w w' key.1 := by
  obtain ⟨journal, machine, hjournal, hreconciling, -, rfl⟩ :=
    Desktop.reconcileUninstall_spec hmatch hstep
  have hmoves : Moves w (w.putMachine transactionId (components journal.targetPath) machine w.store
      (w.removals transactionId).oldDeployed (w.removals transactionId).oldDeployed)
      (journal.skillId, journal.agentProfileId) (components journal.targetPath) :=
    putMachine_moves (fun _ hrow ↦ hrow) (hreconciling.target.imp id .inl)
  refine ⟨hmoves.exclusive h, fun key hkey ↦ ?_⟩
  obtain ⟨_, hjournal', rfl⟩ := Option.map_eq_some_iff.mp hkey
  cases hjournal.symm.trans hjournal'
  exact hmoves.spares

omit [DecidableEq ε] in
theorem editByHand_exclusive (h : Exclusive snapshots w) (path : Location) (node : Option (Node ε)) :
    Exclusive snapshots (w.editByHand path node) := by
  refine ⟨fun row hrow hinstalled ↦ ?_, h.sole⟩
  by_cases hpath : components row.targetPath = path
  · subst hpath
    exact .inl (by simp [Desktop.editByHand])
  · have hsite : (w.editByHand path node).sites (components row.targetPath) =
        w.sites (components row.targetPath) := Function.update_of_ne hpath _ _
    rw [hsite]
    exact h.holds row hrow hinstalled

omit [DecidableEq ε] in
/-- A change of the store installs no row. -/
theorem writeStore_exclusive {host : Host} {event : StoreEvent} {store : LocalStore}
    (hstep : eventStep host w.store event = some store) (hevent : replacesCatalog event = false)
    (h : Exclusive snapshots w) : Exclusive snapshots { w with store } := by
  have hrows : ∀ row ∈ store.deployments, row.state = .installed → row ∈ w.store.deployments := by
    intro row hrow hinstalled
    rcases eventStep_relabels hstep hevent with ⟨skillId, -, rfl⟩ | hrelabels
    · exact (Table.mem_filter.mp hrow).1
    · obtain ⟨before, hbefore, -, -, hsame⟩ := hrelabels.origin row hrow
      exact hsame hinstalled ▸ hbefore
  constructor
  · exact fun row hrow hinstalled ↦ h.holds row (hrows row hrow hinstalled) hinstalled
  · exact fun row hrow row' hrow' hinstalled hinstalled' ↦ h.sole row (hrows row hrow hinstalled)
      row' (hrows row' hrow' hinstalled') hinstalled hinstalled'

/-- One command, with the change of its own path. -/
theorem commandStep_apart {host : Host} {command : DesktopCommand ε} (hmatch : w.JournalsMatch)
    (h : Exclusive snapshots w) (hcondition : KeepsTargets snapshots w command)
    (hstep : commandStep host snapshots w command = some w') :
    Exclusive snapshots w' ∧ ∀ key ∈ actingKey w command, SparesTargets w w' key.1 := by
  cases command with
  | writeStore event =>
    obtain ⟨store, hevent, hstore, rfl⟩ := Desktop.writeStore_spec hstep
    exact ⟨writeStore_exclusive hstore hevent h, nofun⟩
  | upsertAgentProfile profile =>
    obtain ⟨agentProfiles, -, rfl⟩ := Option.map_eq_some_iff.mp hstep
    exact ⟨⟨h.holds, h.sole⟩, nofun⟩
  | editByHand path node =>
    cases hstep
    exact ⟨editByHand_exclusive h path node, nofun⟩
  | deploySingle cache transactionId skillId agentProfileId cut commit =>
    obtain ⟨hexclusive, hspares⟩ := deploySingle_apart hcondition hstep h
    refine ⟨hexclusive, fun _ hkey ↦ ?_⟩
    cases hkey
    exact hspares
  | recoverDeployment cache transactionId cut =>
    exact recoverDeployment_apart hmatch hcondition hstep h
  | recordRecovered cache transactionId acknowledged =>
    have hapart := recordRecovered_apart hcondition hstep h
    exact ⟨(hapart "").1, fun key _ ↦ (hapart key.1).2⟩
  | uninstallSkillFromAgent transactionId skillId agentProfileId commits cut =>
    obtain ⟨hexclusive, hspares⟩ := uninstallSkillFromAgent_apart hcondition hstep h
    refine ⟨hexclusive, fun _ hkey ↦ ?_⟩
    cases hkey
    exact hspares
  | reconcileUninstall transactionId cut => exact reconcileUninstall_apart hmatch hstep h

/-! ## Inside and around a target -/

/-- A command changes the sites of one path, and installs no row for any other. -/
structure ActsAt (w w' : Desktop ε) (path : Location) : Prop where
  others : ∀ path', path' ≠ path → w'.sites path' = w.sites path'
  rows : ∀ row ∈ w'.store.deployments, row.state = .installed →
    row ∈ w.store.deployments ∨ components row.targetPath = path

theorem putDisk_actsAt (w : Desktop ε) (transactionId : String) (path : Location) (disk : Disk ε)
    (reported arrived oldDeployed : Bool) :
    ActsAt w (w.putDisk transactionId path disk reported arrived oldDeployed) path :=
  ⟨fun _ hne ↦ w.putDisk_sites_of_ne hne, fun _ hrow _ ↦ .inl hrow⟩

theorem putMachine_actsAt (w : Desktop ε) (transactionId : String) (path : Location)
    (machine : Uninstall.Machine ε) {removed : LocalStore} (arrived oldDeployed : Bool)
    (hrows : ∀ row ∈ removed.deployments, row ∈ w.store.deployments) :
    ActsAt w (w.putMachine transactionId path machine removed arrived oldDeployed) path := by
  refine ⟨fun _ hne ↦ w.putMachine_sites_of_ne hne, fun row hrow _ ↦ .inl ?_⟩
  unfold Desktop.putMachine at hrow
  dsimp only at hrow
  split at hrow
  · exact hrow
  · exact hrows row hrow

theorem recordVerified_deployments {blobs : Blobs ε} {result : DeploymentResult} {acknowledged : Bool}
    {store : LocalStore} {record : SkillDeploymentRecord}
    (hverified : blobs.verifies result.snapshotHash (w.sites (components result.targetPath)).node =
      true)
    (hrecord : recordDeployment w.store w.agentProfiles result.record = .ok (store, record)) :
    (w.recordVerified blobs result acknowledged).store.deployments =
      w.store.deployments.put result.record.row := by
  have hstore := congrArg LocalStore.deployments (recordDeployment_spec hrecord)
  rcases Desktop.recordVerified_ok hverified hrecord acknowledged with heq | heq
  · exact heq ▸ hstore
  · exact heq ▸ hstore

/-- The row that the catalog records has the path of the deployment. -/
theorem recordVerified_row {blobs : Blobs ε} {result : DeploymentResult} {acknowledged : Bool}
    {store : LocalStore} {record : SkillDeploymentRecord}
    (hverified : blobs.verifies result.snapshotHash (w.sites (components result.targetPath)).node =
      true)
    (hrecord : recordDeployment w.store w.agentProfiles result.record = .ok (store, record)) :
    ∀ row ∈ (w.recordVerified blobs result acknowledged).store.deployments,
      row.key = (result.skillId, result.agentProfileId) →
        components row.targetPath = components result.targetPath := by
  intro row hrow hkey
  rw [recordVerified_deployments hverified hrecord] at hrow
  rcases Table.mem_put.mp hrow with rfl | ⟨-, hother⟩
  · rfl
  · exact absurd hkey hother

theorem recordVerified_actsAt (w : Desktop ε) (blobs : Blobs ε) (result : DeploymentResult)
    (acknowledged : Bool) :
    ActsAt w (w.recordVerified blobs result acknowledged) (components result.targetPath) := by
  rcases w.recordVerified_spec blobs result acknowledged with heq | ⟨store, record, -, hrecord, heq⟩
  · rw [heq]
    exact ⟨fun _ _ ↦ rfl, fun _ hrow _ ↦ .inl hrow⟩
  · have hacts : ActsAt w (w.recorded store (components result.targetPath))
        (components result.targetPath) := by
      refine ⟨fun path' hne ↦ Function.update_of_ne hne _ _, fun row hrow _ ↦ ?_⟩
      rw [recordDeployment_spec hrecord] at hrow
      have hput : row ∈ w.store.deployments.put result.record.row := hrow
      rcases Table.mem_put.mp hput with rfl | hkept
      · exact .inr rfl
      · exact .inl hkept.1
    rcases heq with heq | heq
    · exact heq ▸ hacts
    · exact heq ▸ ⟨hacts.others, hacts.rows⟩

omit [DecidableEq ε] in
theorem ActsAt.trans {w₁ : Desktop ε} (h : ActsAt w w₁ path) (h' : ActsAt w₁ w' path) :
    ActsAt w w' path where
  others path' hne := (h'.others path' hne).trans (h.others path' hne)
  rows row hrow hinstalled := (h'.rows row hrow hinstalled).elim (h.rows row · hinstalled) .inr

/-- A command changes the path that it is about. -/
theorem commandStep_actsAt {host : Host} {command : DesktopCommand ε} (hmatch : w.JournalsMatch)
    (hplace : command.place w = some path) (hstep : commandStep host snapshots w command = some w') :
    ActsAt w w' path := by
  cases command with
  | writeStore event => cases hplace
  | upsertAgentProfile profile => cases hplace
  | recordRecovered cache transactionId acknowledged => cases hplace
  | editByHand path node =>
    cases hplace
    cases hstep
    exact ⟨fun path' hne ↦ Function.update_of_ne hne _ _, fun _ hrow _ ↦ .inl hrow⟩
  | deploySingle cache transactionId skillId agentProfileId cut commit =>
    obtain ⟨request, result, w₁, hrequest, -, -, hdeployed, hend⟩ := Desktop.deploySingle_spec hstep
    obtain ⟨_, hrequest', rfl⟩ := Option.map_eq_some_iff.mp hplace
    cases hrequest.symm.trans (toOption_eq_some.mp hrequest')
    have hacts : ActsAt w w₁ (components request.targetPath) := by
      obtain ⟨disk, reported, rfl⟩ := hdeployed.eq_putDisk
      exact putDisk_actsAt _ _ _ _ _ _ _
    rcases hend with ⟨reached, acknowledged, rfl, -, rfl⟩ | ⟨rfl, -⟩
    · cases hdeployed with
      | done files hserved hremovable hfiles => exact hacts.trans (recordVerified_actsAt _ _ _ _)
    · exact hacts
  | recoverDeployment cache transactionId cut =>
    obtain ⟨journal, disk, reported, hjournal, -, rfl⟩ := Desktop.recoverDeployment_spec hmatch hstep
    obtain ⟨_, hjournal', rfl⟩ := Option.map_eq_some_iff.mp hplace
    cases hjournal.symm.trans hjournal'
    exact putDisk_actsAt _ _ _ _ _ _ _
  | uninstallSkillFromAgent transactionId skillId agentProfileId commits cut =>
    obtain ⟨row, profile, result, machine, hrow, -, -, rfl⟩ :=
      Desktop.uninstallSkillFromAgent_spec hstep
    obtain ⟨_, hrow', rfl⟩ := Option.map_eq_some_iff.mp hplace
    cases hrow.symm.trans hrow'
    exact putMachine_actsAt _ _ _ _ _ _ fun row hrow ↦ (Table.mem_erase.mp hrow).1
  | reconcileUninstall transactionId cut =>
    obtain ⟨journal, machine, hjournal, -, -, rfl⟩ := Desktop.reconcileUninstall_spec hmatch hstep
    obtain ⟨_, hjournal', rfl⟩ := Option.map_eq_some_iff.mp hplace
    cases hjournal.symm.trans hjournal'
    exact putMachine_actsAt _ _ _ _ _ _ fun _ hrow ↦ hrow

omit [DecidableEq ε] in
/-- Whoever changes a path is the user, or acts for a row. -/
theorem actingKey_of_place {command : DesktopCommand ε} (hplace : command.place w = some path) :
    (command.byHand = true ∧ actingKey w command = none) ∨
      ∃ key, actingKey w command = some key := by
  cases command with
  | editByHand path node => exact .inl ⟨rfl, rfl⟩
  | deploySingle cache transactionId skillId agentProfileId cut commit => exact .inr ⟨_, rfl⟩
  | uninstallSkillFromAgent transactionId skillId agentProfileId commits cut => exact .inr ⟨_, rfl⟩
  | recoverDeployment cache transactionId cut =>
    obtain ⟨journal, hjournal, -⟩ := Option.map_eq_some_iff.mp hplace
    exact .inr ⟨_, Option.map_eq_some_iff.mpr ⟨journal, hjournal, rfl⟩⟩
  | reconcileUninstall transactionId cut =>
    obtain ⟨journal, hjournal, -⟩ := Option.map_eq_some_iff.mp hplace
    exact .inr ⟨_, Option.map_eq_some_iff.mpr ⟨journal, hjournal, rfl⟩⟩
  | writeStore event => cases hplace
  | upsertAgentProfile profile => cases hplace
  | recordRecovered cache transactionId acknowledged => cases hplace

/-- The catalog records a deployment that is done at its path. -/
theorem deployed_row {cache : BlobCache} {transactionId skillId agentProfileId : String}
    {request : DeploymentRequest} {files : List ε} (acknowledged : Bool)
    (hrequest : deploymentRequest w.store w.agentProfiles skillId agentProfileId = .ok request)
    (hfiles : (w.transaction (cache.blobs snapshots) transactionId request).files? = some files)
    (hnode : (w'.sites (components request.targetPath)).node = some (.snapshot files))
    (hstore : w'.store = w.store) (hprofiles : w'.agentProfiles = w.agentProfiles) :
    ∀ row ∈ (w'.recordVerified (cache.blobs snapshots)
        ((w.transaction (cache.blobs snapshots) transactionId request).journal .intent).result
        acknowledged).store.deployments,
      row.key = (skillId, agentProfileId) →
        components row.targetPath = components request.targetPath := by
  intro row hrow hkey
  set result := ((w.transaction (cache.blobs snapshots) transactionId request).journal .intent).result
  have hrecord : ∃ record, recordDeployment w.store w.agentProfiles result.record = .ok (_, record) :=
    recordDeployment_of_request hrequest rfl rfl rfl rfl
  obtain ⟨record, hrecord⟩ := hrecord
  rw [← hstore, ← hprofiles] at hrecord
  have hverified : (cache.blobs snapshots).verifies result.snapshotHash
      (w'.sites (components result.targetPath)).node = true :=
    Desktop.verifies_iff.mpr ⟨files, hfiles, hnode⟩
  have hown : row.key = (result.skillId, result.agentProfileId) := by
    obtain ⟨skill, profile, -, -, -, -, rfl⟩ := deploymentRequest_spec hrequest
    exact hkey
  have htarget := recordVerified_row hverified hrecord row hrow hown
  exact htarget

/-- A deployment that replaces its row leaves it at the path of the deployment. -/
theorem redeploys_row {host : Host} {command : DesktopCommand ε}
    (hredeploys : Redeploys snapshots w command) (hplace : command.place w = some path)
    (hkey : actingKey w command = some key)
    (hstep : commandStep host snapshots w command = some w') :
    ∀ row ∈ w'.store.deployments, row.key = key → components row.targetPath = path := by
  cases command with
  | deploySingle cache transactionId skillId agentProfileId cut commit =>
    obtain ⟨hcut, hcommit, hrequests⟩ := hredeploys
    obtain ⟨request, result, w₁, hrequest, -, hrun, hdeployed, hend⟩ :=
      Desktop.deploySingle_spec hstep
    obtain ⟨_, hrequest', rfl⟩ := Option.map_eq_some_iff.mp hplace
    cases hrequest.symm.trans (toOption_eq_some.mp hrequest')
    cases hkey
    obtain ⟨hserved, hremovable⟩ := hrequests request hrequest'
    have hended := (Desktop.runDeploy_isSome hrun).mpr (Option.isNone_iff_eq_none.mp hcut)
    cases hdeployed with
    | givenUp hunserved => exact absurd hserved hunserved
    | refused files left _ hrefused => exact absurd hremovable hrefused
    | cutOff disk hshape => cases hended
    | done files _ _ hfiles =>
      rcases hend with ⟨reached, acknowledged, ⟨⟩, -, rfl⟩ | ⟨-, hlost⟩
      · exact deployed_row acknowledged hrequest hfiles (Desktop.putDisk_node w) rfl rfl
      · rw [hlost _ rfl] at hcommit
        cases hcommit
  | _ => cases hredeploys

/-- Where nothing but edited targets is inside or around a path, a change there breaks nothing. -/
theorem stir_exclusive {byHand : Bool} (wake : Wake ε) (h : Exclusive snapshots w)
    (hedited : ∀ row ∈ w.store.deployments, row.state = .installed →
      Nested path (components row.targetPath) →
        byHand = true ∨ (w.sites (components row.targetPath)).edited = true) :
    Exclusive snapshots (w.stir path byHand wake) := by
  refine ⟨fun row hrow hinstalled ↦ ?_, h.sole⟩
  by_cases hnested : Nested path (components row.targetPath)
  · rw [w.stir_sites_of_nested _ _ _ hnested]
    unfold Site.follow
    split
    · exact h.holds row hrow hinstalled
    · refine .inl ?_
      rcases hedited row hrow hinstalled hnested with rfl | hedited
      · exact Bool.or_true _
      · rw [hedited]
        rfl
  · rw [w.stir_sites_of_not_nested _ _ _ hnested]
    exact h.holds row hrow hinstalled

/-! ## Runs -/

/-- One step. -/
theorem desktopStep_apart {host : Host} {action : DesktopAction ε} (hmatch : w.JournalsMatch)
    (h : Exclusive snapshots w) (hcondition : KeepsApart snapshots w action)
    (hstep : desktopStep host snapshots w action = some w') :
    Exclusive snapshots w' ∧ ∀ key ∈ actingKey w action.command, SparesTargets w w' key.1 := by
  obtain ⟨w₁, hcommand, hstir⟩ := Desktop.desktopStep_spec hstep
  obtain ⟨hexclusive, hspares⟩ := commandStep_apart hmatch h hcondition.1 hcommand
  obtain ⟨-, rfl⟩ | ⟨path, hplace, rfl⟩ := hstir
  · exact ⟨hexclusive, hspares⟩
  rcases actingKey_of_place hplace with ⟨hhand, hnone⟩ | ⟨key, hkey⟩
  · refine ⟨stir_exclusive _ hexclusive fun _ _ _ _ ↦ .inl hhand, fun key hkey ↦ ?_⟩
    cases hnone.symm.trans hkey
  have huntangled := hcondition.2 path hplace key hkey
  constructor
  · -- what is installed inside or around the path is the edited row of the command itself
    refine stir_exclusive _ hexclusive fun row hrow hinstalled hnested ↦ .inr ?_
    have hacts := commandStep_actsAt hmatch hplace hcommand
    rcases hacts.rows row hrow hinstalled with hbefore | hpath
    case inr => exact absurd hpath.symm hnested.1
    rw [hacts.others _ hnested.1.symm]
    by_contra hunedited
    have hentangled : row ∈ w.entangled key path :=
      Desktop.mem_entangled.mpr ⟨hbefore, hinstalled, hnested, fun _ ↦ Bool.eq_false_iff.mpr hunedited⟩
    obtain ⟨hown, hredeploys⟩ := huntangled row hentangled
    exact hnested.1 (redeploys_row hredeploys hplace hkey hcommand row hrow hown).symm
  · intro key' hkey' row hrow hinstalled hother hthere
    cases hkey.symm.trans hkey'
    by_cases hnested : Nested path (components row.targetPath)
    · have hne : row.key ≠ key := fun heq ↦ hother (congrArg Prod.fst heq)
      have hentangled : row ∈ w.entangled key path :=
        Desktop.mem_entangled.mpr ⟨hrow, hinstalled, hnested, fun heq ↦ absurd heq hne⟩
      exact absurd (huntangled row hentangled).1 hne
    · rw [w₁.stir_sites_of_not_nested _ _ _ hnested]
      exact hspares key hkey row hrow hinstalled hother hthere

omit [DecidableEq ε] in
theorem fresh_exclusive : Exclusive snapshots (Desktop.fresh : Desktop ε) :=
  ⟨fun _ hrow ↦ absurd hrow (Table.not_mem_empty _), fun _ hrow ↦ absurd hrow (Table.not_mem_empty _)⟩

/-- In every run whose steps find no guard at the paths that they change, every installed row has
its snapshot to itself, and no step touches the files of another skill. -/
theorem exclusive_of_keepsApart (host : Host) (snapshots : String → Option (List ε))
    (actions : List (DesktopAction ε))
    (h : (desktop host snapshots).EachStep (KeepsApart snapshots) .fresh actions) :
    (desktop host snapshots).Always (Exclusive snapshots) .fresh actions ∧
      (desktop host snapshots).EachStep (SparesOthers host snapshots) .fresh actions := by
  have hboth : (desktop host snapshots).Always (fun w ↦ w.JournalsMatch ∧ Exclusive snapshots w)
      .fresh actions := by
    refine h.always ?_ ⟨⟨nofun, nofun⟩, fresh_exclusive⟩
    intro w action w' ⟨hmatch, hexclusive⟩ hcondition hstep
    exact ⟨Desktop.desktopStep_journalsMatch hmatch hstep,
      (desktopStep_apart hmatch hexclusive hcondition hstep).1⟩
  refine ⟨hboth.mono fun _ ↦ And.right, .of_always ?_ h hboth⟩
  intro w action ⟨hmatch, hexclusive⟩ hcondition w' hstep
  exact (desktopStep_apart hmatch hexclusive hcondition hstep).2

/-! ## Two skills for one agent -/

def sharedAgent : AgentProfile where
  id := "agent"
  skillRoot := "/home/u/skills"
  enabled := true
  stable := by decide +kernel

/-- The user writes a skill of this slug. -/
def writeSkill (skillId slug hash : String) : DesktopCommand ℕ :=
  .writeStore (.operation (.commitSkillEdit 0 skillId
    ⟨skillId, none, "Code Review", slug, ⟨"/work/" ++ skillId, true, true⟩, hash, none, .create⟩))

def deploySkill (transactionId skillId : String) : DesktopCommand ℕ :=
  .deploySingle ⟨fun _ ↦ true, fun _ ↦ 1⟩ transactionId skillId "agent" none (some true)

def sharedSnapshots (hash : String) : Option (List ℕ) :=
  if hash = "sha256:first" then some [1] else if hash = "sha256:second" then some [2] else none

/-- Two skills, of these slugs, for one agent. -/
def twoSkills (slug slug' : String) : List (DesktopCommand ℕ) :=
  [.upsertAgentProfile sharedAgent, writeSkill "s1" slug "sha256:first",
    writeSkill "s2" slug' "sha256:second", deploySkill "t1" "s1", deploySkill "t2" "s2"]

/-- The run with two slugs, and the uninstall of one of the skills. -/
def twoSlugs : List (DesktopAction ℕ) :=
  (twoSkills "code-review" "code-style" ++
    [DesktopCommand.uninstallSkillFromAgent "u1" "s1" "agent" true none]).map .alone

theorem twoSlugs_apart :
    (desktop leaselessHost sharedSnapshots).EachStep (KeepsApart sharedSnapshots) .fresh twoSlugs ∧
      (desktop leaselessHost sharedSnapshots).Always (Exclusive sharedSnapshots) .fresh twoSlugs ∧
      (desktop leaselessHost sharedSnapshots).EachStep (SparesOthers leaselessHost sharedSnapshots)
        .fresh twoSlugs := by
  have hapart : (desktop leaselessHost sharedSnapshots).EachStep (KeepsApart sharedSnapshots) .fresh
      twoSlugs := by
    decide +kernel
  exact ⟨hapart, exclusive_of_keepsApart leaselessHost sharedSnapshots _ hapart⟩

/-- An agent whose skill root is around the skill root of the other one. -/
def outerAgent : AgentProfile where
  id := "outer"
  skillRoot := "/home/u"
  enabled := true
  stable := by decide +kernel

/-- A skill of the slug `skills` is not to be deployed around the target of another. -/
example : ((desktop leaselessHost sharedSnapshots).run .fresh
    ([.upsertAgentProfile sharedAgent, .upsertAgentProfile outerAgent,
      writeSkill "s1" "code-review" "sha256:first", writeSkill "s2" "skills" "sha256:second",
      deploySkill "t1" "s1"].map .alone)).any (fun w ↦ ¬ KeepsApart sharedSnapshots w
        (.alone (.deploySingle ⟨fun _ ↦ true, fun _ ↦ 1⟩ "t2" "s2" "outer" none (some true)))) =
          true := by
  decide +kernel

/-- Two skills of one slug share a target. The second deployment overwrites the files of the first
skill, and the uninstall of the first removes those of the second. -/
theorem sharedSlug_overwritten :
    ∃ w, (desktop leaselessHost sharedSnapshots).run .fresh
        ((twoSkills "code-review" "code-review").map .alone) = some w ∧
      ¬ Exclusive sharedSnapshots w ∧
      ¬ SparesOthers leaselessHost sharedSnapshots w
        (.alone (.uninstallSkillFromAgent "u1" "s1" "agent" true none)) := by
  have hrun : ((desktop leaselessHost sharedSnapshots).run .fresh
      ((twoSkills "code-review" "code-review").map .alone)).any (fun w ↦
        (w.store.deployments.get? ("s1", "agent")).any fun first ↦
          (w.store.deployments.get? ("s2", "agent")).any fun second ↦
            first.state = .installed ∧ second.state = .installed ∧ first ≠ second ∧
              second.skillId ≠ "s1" ∧ components first.targetPath = components second.targetPath ∧
              (w.sites (components second.targetPath)).node.isSome ∧
              (desktopStep leaselessHost sharedSnapshots w
                (.alone (.uninstallSkillFromAgent "u1" "s1" "agent" true none))).any fun w' ↦
                  (w'.sites (components second.targetPath)).node = none) = true := by
    decide +kernel
  obtain ⟨w, hw, hrows⟩ := (Option.any_eq_true _ _).mp hrun
  obtain ⟨first, hfirst, hrows⟩ := (Option.any_eq_true _ _).mp hrows
  obtain ⟨second, hsecond, hrows⟩ := (Option.any_eq_true _ _).mp hrows
  obtain ⟨hinstalled, hinstalled', hne, hother, hpath, hthere, hstep⟩ := of_decide_eq_true hrows
  obtain ⟨w', hw', hgone⟩ := (Option.any_eq_true _ _).mp hstep
  refine ⟨w, hw, fun hexclusive ↦ hne ?_, fun hspares ↦ ?_⟩
  · exact hexclusive.sole first (Table.mem_of_get? hfirst) second (Table.mem_of_get? hsecond)
      hinstalled hinstalled' hpath
  · have hsame := hspares w' hw' ("s1", "agent") rfl second (Table.mem_of_get? hsecond) hinstalled' hother hthere
    rw [of_decide_eq_true hgone] at hsame
    rw [← hsame] at hthere
    cases hthere

end Deployment

end SkillHive
