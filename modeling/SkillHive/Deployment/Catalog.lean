import SkillHive.LocalStore.Skills

/-!
# The deployment catalog

The rows of `skill_deployments`, and the profiles of the agents that skills are deployed to. A
row is keyed by its skill and its agent, and the files it tells of stand at a path that ends in
the slug that the skill had. Texts of paths are those of a Unix host; two of them name the same
path when their components agree.
-/

namespace SkillHive

open Foundation LocalStore

namespace Deployment

/-! ## Paths -/

/-- `Path::components`, for absolute paths. -/
def components (path : String) : List String :=
  ((path.toList.splitOn '/').filter fun part ↦ part ≠ [] ∧ part ≠ ['.']).map String.ofList

/-- `skill_root.join(directory_name)`, for a name that is not absolute. -/
def joinPath (skillRoot directoryName : String) : String :=
  if skillRoot.toList.getLast? = some '/' then skillRoot ++ directoryName
  else skillRoot ++ "/" ++ directoryName

/-- `path.parent() == Some(root)` -/
def HasParent (path root : String) : Prop :=
  components path ≠ [] ∧ (components path).dropLast = components root

instance (path root : String) : Decidable (HasParent path root) :=
  inferInstanceAs (Decidable (_ ∧ _))

/-- `validate_stable_absolute_path` -/
def StableAbsolute (path : String) : Prop :=
  path.toList.head? = some '/' ∧ ".." ∉ components path

instance (path : String) : Decidable (StableAbsolute path) := inferInstanceAs (Decidable (_ ∧ _))

/-- The components on both sides of a separator. -/
theorem splitOn_filter_append (left right : List Char) :
    ((left ++ '/' :: right).splitOn '/').filter (fun part ↦ part ≠ [] ∧ part ≠ ['.']) =
      (left.splitOn '/').filter (fun part ↦ part ≠ [] ∧ part ≠ ['.']) ++
        (right.splitOn '/').filter fun part ↦ part ≠ [] ∧ part ≠ ['.'] := by
  rw [List.splitOn_append_cons_self, List.filter_append]

theorem components_joinPath (skillRoot directoryName : String) :
    components (joinPath skillRoot directoryName) =
      components skillRoot ++ components directoryName := by
  unfold joinPath components
  rw [← List.map_append]
  split
  case isTrue hlast =>
    obtain ⟨rest, hroot⟩ := List.getLast?_eq_some_iff.mp hlast
    rw [String.toList_append, hroot, List.append_assoc, List.singleton_append,
      splitOn_filter_append, splitOn_filter_append]
    simp
  case isFalse =>
    have htext : (skillRoot ++ "/" ++ directoryName).toList =
        skillRoot.toList ++ '/' :: directoryName.toList := by
      simp
    rw [htext, splitOn_filter_append]

theorem head?_joinPath {skillRoot : String} (directoryName : String)
    (habsolute : skillRoot.toList.head? = some '/') :
    (joinPath skillRoot directoryName).toList.head? = some '/' := by
  unfold joinPath
  split <;> simp [habsolute]

/-! ## Agent profiles -/

/-- A row of `agent_profiles` that `validate_agent_profile` has accepted. -/
structure AgentProfile where
  id : String
  skillRoot : String
  enabled : Bool
  stable : StableAbsolute skillRoot
  deriving DecidableEq

abbrev AgentProfileTable := Table AgentProfile AgentProfile.id

inductive CatalogError where
  | store (error : LocalStoreError)
  | agentProfileNotFound (profileId : String)
  | agentProfileRootInUse (profileId currentRoot requestedRoot : String) (deploymentCount : ℕ)
  | deploymentCatalogChanged (skillId agentProfileId : String)
  deriving DecidableEq, Repr

/-- `SELECT COUNT(*) FROM skill_deployments WHERE agent_profile_id = ?` -/
def deploymentCount (deployments : DeploymentTable) (profileId : String) : ℕ :=
  deployments.rows.countP fun d ↦ d.agentProfileId = profileId

/-- `upsert_agent_profile` -/
def upsertAgentProfile (profiles : AgentProfileTable) (deployments : DeploymentTable)
    (profile : AgentProfile) : Except CatalogError AgentProfileTable := do
  match profiles.get? profile.id with
  | none => pure ()
  | some existing =>
    let count := deploymentCount deployments profile.id
    require (existing.skillRoot = profile.skillRoot ∨ count = 0)
      (.agentProfileRootInUse profile.id existing.skillRoot profile.skillRoot count)
  require (∀ row ∈ profiles.rows, row.id ≠ profile.id → row.skillRoot ≠ profile.skillRoot)
    (.store (.database (.unique "agent_profiles.skill_root")))
  pure (profiles.put profile)

/-! ## Rows -/

structure RecordDeployment where
  skillId : String
  agentProfileId : String
  deployedBlobHash : String
  targetPath : String
  state : DeploymentState
  lastError : Option String
  deriving DecidableEq, Repr

structure SkillDeploymentRecord where
  deployment : SkillDeployment
  skillName : String
  deriving DecidableEq, Repr

def RecordDeployment.row (deployment : RecordDeployment) : SkillDeployment where
  skillId := deployment.skillId
  agentProfileId := deployment.agentProfileId
  deployedBlobHash := deployment.deployedBlobHash
  targetPath := deployment.targetPath
  state := deployment.state
  lastError := deployment.lastError

/-- The checks of `record_deployment` on its argument alone. -/
def RecordDeployment.check (deployment : RecordDeployment) : Except LocalStoreError Unit := do
  validateNonEmpty "skill_id" deployment.skillId
  validateNonEmpty "agent_profile_id" deployment.agentProfileId
  validateNonEmpty "deployed_blob_hash" deployment.deployedBlobHash
  require (StableAbsolute deployment.targetPath)
    (.invalidInput "deployment target_path must be absolute and lexically normalized")

/-- `record_deployment` -/
def recordDeployment (store : LocalStore) (profiles : AgentProfileTable)
    (deployment : RecordDeployment) :
    Except CatalogError (LocalStore × SkillDeploymentRecord) := do
  deployment.check.mapError .store
  let profile ← okOr (profiles.get? deployment.agentProfileId)
    (.agentProfileNotFound deployment.agentProfileId)
  require (HasParent deployment.targetPath profile.skillRoot) (.store (.invalidInput
    s!"deployment target {deployment.targetPath} is not a direct child of agent profile root {profile.skillRoot}"))
  let skill ← okOr (store.skill? deployment.skillId) (.store (.skillNotFound deployment.skillId))
  pure ({ store with deployments := store.deployments.put deployment.row },
    { deployment := deployment.row, skillName := skill.name })

/-- `remove_deployment_catalog`, which removes the row that the uninstall was started for; the
answer says whether there was one. -/
def removeDeploymentCatalog (store : LocalStore) (skillId agentProfileId expectedSnapshotHash
    expectedTargetPath : String) : Except CatalogError (LocalStore × Bool) :=
  match store.deployments.get? (skillId, agentProfileId) with
  | none => .ok (store, false)
  | some current =>
    if current.deployedBlobHash = expectedSnapshotHash ∧ current.targetPath = expectedTargetPath then
      .ok ({ store with deployments := store.deployments.erase (skillId, agentProfileId) }, true)
    else .error (.deploymentCatalogChanged skillId agentProfileId)

theorem recordDeployment_spec {store store' : LocalStore} {profiles : AgentProfileTable}
    {deployment : RecordDeployment} {record : SkillDeploymentRecord}
    (h : recordDeployment store profiles deployment = .ok (store', record)) :
    store' = { store with deployments := store.deployments.put deployment.row } := by
  obtain ⟨-, -, h⟩ := bind_eq_ok.mp h
  obtain ⟨profile, -, h⟩ := bind_eq_ok.mp h
  obtain ⟨-, -, h⟩ := bind_eq_ok.mp h
  obtain ⟨skill, -, h⟩ := bind_eq_ok.mp h
  cases h
  rfl

end Deployment

end SkillHive
