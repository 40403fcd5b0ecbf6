import SkillHive.Deployment.Catalog
import SkillHive.Deployment.Engine

/-!
# Deployment requests

What `deploy_single` reads and checks before it touches the disk. A request that passes names a
target that the catalog will accept: the parent of the target is the root of the agent.
-/

namespace SkillHive

open Foundation LocalStore

namespace Deployment

inductive RequestError where
  | invalidRequest (message : String)
  | invalidDirectoryName (name : String)
  deriving DecidableEq, Repr

inductive DeployError where
  | refused (message : String)
  | request (error : RequestError)
  deriving DecidableEq, Repr

/-! ## Directory names -/

/-- `RESERVED_PREFIX` -/
def reservedPrefix : String := ".skillhive-"

/-- `character.is_control()`, or a character that a name on Windows may not have. -/
def isForbidden (c : Char) : Bool :=
  c.toNat < 0x20 || (0x7F ≤ c.toNat && c.toNat ≤ 0x9F) || "<>:\"\\|?*".toList.contains c

/-- A device of Windows, whatever the extension. -/
def isDeviceName (name : String) : Bool :=
  let stem := (name.toList.takeWhile fun c ↦ c ≠ '.').map Char.toUpper
  ["CON", "PRN", "AUX", "NUL"].any (fun device ↦ stem = device.toList) ||
    ["COM", "LPT"].any fun port ↦ "123456789".toList.any fun digit ↦ stem = port.toList ++ [digit]

/-- The only component of the name is `Component::Normal`. -/
def IsNormal (name : String) : Prop :=
  (∀ part ∈ (name.toList.splitOn '/').head?, part ≠ [] ∧ part ≠ ['.']) ∧
    (components name).length = 1 ∧ ".." ∉ components name

instance (name : String) : Decidable (IsNormal name) := inferInstanceAs (Decidable (_ ∧ _))

instance (name : String) : Decidable (∀ c ∈ name.toList, isForbidden c = false) :=
  List.decidableBAll _ _

/-- `validate_directory_name` -/
def validateDirectoryName (name : String) : Except RequestError Unit := do
  require (¬ reservedPrefix.toList <+: name.toList ∧ name.toList.getLast? ≠ some '.' ∧
    name.toList.getLast? ≠ some ' ' ∧ ∀ c ∈ name.toList, isForbidden c = false)
    (.invalidDirectoryName name)
  require (IsNormal name) (.invalidDirectoryName name)
  require (isDeviceName name = false) (.invalidDirectoryName name)

/-! ## Requests -/

/-- One field of the loop in `validate_request` -/
def requireField (field value : String) : Except RequestError Unit :=
  require (trim value ≠ "") (.invalidRequest s!"{field} must not be empty")

/-- `validate_request`, which leaves the request with its target. -/
def validateRequest (skillId agentProfileId snapshotHash skillRoot directoryName : String) :
    Except RequestError DeploymentRequest := do
  requireField "skill_id" skillId
  requireField "agent_profile_id" agentProfileId
  requireField "snapshot_hash" snapshotHash
  requireField "directory_name" directoryName
  validateDirectoryName directoryName
  require (skillRoot.toList.head? = some '/')
    (.invalidRequest "skill_root must be an absolute UTF-8 path")
  pure { skillId, agentProfileId, snapshotHash, targetPath := joinPath skillRoot directoryName }

/-- `{:?}` -/
def SkillSyncState.debug : SkillSyncState → String
  | .remoteOnly => "RemoteOnly"
  | .synced => "Synced"
  | .dirty => "Dirty"
  | .uploading => "Uploading"
  | .conflict => "Conflict"
  | .syncError => "SyncError"
  | .accessRevoked => "AccessRevoked"
  | .corrupted => "Corrupted"

/-- What `deploy_single` asks the engine for. -/
def deploymentRequest (store : LocalStore) (profiles : AgentProfileTable)
    (skillId agentProfileId : String) : Except DeployError DeploymentRequest := do
  let skill ← okOr (store.skill? skillId) (.refused s!"skill not found: {skillId}")
  require (skill.syncState ∉ [.remoteOnly, .accessRevoked, .corrupted]) (.refused
    s!"skill {skill.id} is not deployable in state {SkillSyncState.debug skill.syncState}")
  let profile ← okOr (profiles.get? agentProfileId)
    (.refused s!"agent profile not found: {agentProfileId}")
  require (profile.enabled = true) (.refused s!"agent profile is disabled: {profile.id}")
  (validateRequest skill.id profile.id skill.currentBlobHash profile.skillRoot skill.slug).mapError
    .request

/-- What the catalog is told once the target is verified. -/
def DeploymentResult.record (result : DeploymentResult) : RecordDeployment where
  skillId := result.skillId
  agentProfileId := result.agentProfileId
  deployedBlobHash := result.snapshotHash
  targetPath := result.targetPath
  state := .installed
  lastError := none

/-! ## What a request that passes is -/

theorem validateRequest_spec {skillId agentProfileId snapshotHash skillRoot directoryName : String}
    {request : DeploymentRequest}
    (h : validateRequest skillId agentProfileId snapshotHash skillRoot directoryName = .ok request) :
    (trim skillId ≠ "" ∧ trim agentProfileId ≠ "" ∧ trim snapshotHash ≠ "") ∧
      IsNormal directoryName ∧
      request = ⟨skillId, agentProfileId, snapshotHash, joinPath skillRoot directoryName⟩ := by
  obtain ⟨_, hskill, h⟩ := bind_eq_ok.mp h
  obtain ⟨_, hprofile, h⟩ := bind_eq_ok.mp h
  obtain ⟨_, hhash, h⟩ := bind_eq_ok.mp h
  obtain ⟨-, -, h⟩ := bind_eq_ok.mp h
  obtain ⟨_, hname, h⟩ := bind_eq_ok.mp h
  obtain ⟨-, -, hrequest⟩ := bind_eq_ok.mp h
  obtain ⟨-, -, hname⟩ := bind_eq_ok.mp hname
  obtain ⟨_, hnormal, -⟩ := bind_eq_ok.mp hname
  exact ⟨⟨require_eq_ok.mp hskill, require_eq_ok.mp hprofile, require_eq_ok.mp hhash⟩,
    require_eq_ok.mp hnormal, (Except.ok.inj hrequest).symm⟩

section Request

variable {store : LocalStore} {profiles : AgentProfileTable} {skillId agentProfileId : String}
  {request : DeploymentRequest}

/-- The request is for the skill and the agent, and its target is in the agent's root. -/
theorem deploymentRequest_spec
    (h : deploymentRequest store profiles skillId agentProfileId = .ok request) :
    ∃ skill profile, store.skill? skillId = some skill ∧
      profiles.get? agentProfileId = some profile ∧
      (trim skillId ≠ "" ∧ trim agentProfileId ≠ "" ∧ trim skill.currentBlobHash ≠ "") ∧
      IsNormal skill.slug ∧
      request = ⟨skillId, agentProfileId, skill.currentBlobHash,
        joinPath profile.skillRoot skill.slug⟩ := by
  obtain ⟨skill, hskill, h⟩ := bind_eq_ok.mp h
  obtain ⟨-, -, h⟩ := bind_eq_ok.mp h
  obtain ⟨profile, hprofile, h⟩ := bind_eq_ok.mp h
  obtain ⟨-, -, h⟩ := bind_eq_ok.mp h
  rw [okOr_eq_ok] at hskill hprofile
  have hskillId : skill.id = skillId := Table.key_of_get? hskill
  have hprofileId : profile.id = agentProfileId := Table.key_of_get? hprofile
  rw [mapError_eq_ok, hskillId, hprofileId] at h
  obtain ⟨hfields, hnormal, hrequest⟩ := validateRequest_spec h
  exact ⟨skill, profile, hskill, hprofile, hfields, hnormal, hrequest⟩

theorem hasParent_joinPath {skillRoot directoryName : String} (hnormal : IsNormal directoryName) :
    HasParent (joinPath skillRoot directoryName) skillRoot := by
  obtain ⟨-, hone, -⟩ := hnormal
  obtain ⟨name, hname⟩ := List.length_eq_one_iff.mp hone
  unfold HasParent
  rw [components_joinPath, hname]
  exact ⟨List.append_ne_nil_of_right_ne_nil _ (List.cons_ne_nil _ _), List.dropLast_concat⟩

theorem stableAbsolute_joinPath {skillRoot directoryName : String}
    (hroot : StableAbsolute skillRoot) (hnormal : IsNormal directoryName) :
    StableAbsolute (joinPath skillRoot directoryName) := by
  refine ⟨head?_joinPath directoryName hroot.1, ?_⟩
  rw [components_joinPath, List.mem_append, not_or]
  exact ⟨hroot.2, hnormal.2.2⟩

/-- The catalog accepts what a request that passes has deployed. -/
theorem recordDeployment_of_request
    (h : deploymentRequest store profiles skillId agentProfileId = .ok request)
    {result : DeploymentResult} (hskillId : result.skillId = request.skillId)
    (hprofileId : result.agentProfileId = request.agentProfileId)
    (htarget : result.targetPath = request.targetPath)
    (hhash : result.snapshotHash = request.snapshotHash) :
    ∃ record, recordDeployment store profiles result.record =
      .ok ({ store with deployments := store.deployments.put result.record.row }, record) := by
  obtain ⟨skill, profile, hskill, hprofile, hfields, hnormal, rfl⟩ := deploymentRequest_spec h
  have hcheck : result.record.check = .ok () := by
    have hstable := stableAbsolute_joinPath profile.stable hnormal
    simp [RecordDeployment.check, DeploymentResult.record, validateNonEmpty, require, bind, Except.bind,
      hskillId, hprofileId, htarget, hhash, hfields, hstable]
  have hparent : HasParent result.targetPath profile.skillRoot :=
    htarget.symm ▸ hasParent_joinPath hnormal
  refine ⟨⟨result.record.row, skill.name⟩, ?_⟩
  unfold recordDeployment
  rw [hcheck, show result.record.agentProfileId = agentProfileId from hprofileId, hprofile,
    show result.record.skillId = skillId from hskillId, hskill]
  simp [Except.mapError, okOr, require, bind, Except.bind, pure, Except.pure, hparent,
    show result.record.targetPath = result.targetPath from rfl]

end Request

end Deployment

end SkillHive
