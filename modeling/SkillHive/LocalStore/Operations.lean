import SkillHive.Foundation.TransitionSystem
import SkillHive.LocalStore.Conflicts
import SkillHive.LocalStore.PullApply
import SkillHive.LocalStore.Skills

/-!
# The store as a state machine

Every operation that writes the desktop database, as an action of one transition system.
An operation that fails rolls back, so only the operations that succeed are steps.

The sync cycle applies an outcome only to a mutation it holds in flight, and the outcomes
it applies are either transport errors it made itself or decoded server responses: an
acknowledgement carries its revision and a conflict the revision of the remote head. The
writes of the deployment catalogue and of the scope columns touch no other table; a step
may replace those two parts of the store by anything.
-/

namespace SkillHive

open Foundation

namespace LocalStore

/-- The fields that the server fills for each status. -/
def MutationOutcome.IsWellFormed (outcome : MutationOutcome) : Prop :=
  (outcome.status = "acked" → outcome.revision.isSome) ∧
    (outcome.status = "conflict" → outcome.conflictHeadRevision.isSome)

instance (outcome : MutationOutcome) : Decidable outcome.IsWellFormed :=
  inferInstanceAs (Decidable (_ ∧ _))

inductive StoreAction where
  | commitSkillEdit (now : ℕ) (mutationId : String) (edit : CommitSkillEdit)
  | queueSkillDelete (now : ℕ) (mutationId skillId : String) (baseRevision : Option Int)
  | claimDispatchableMutations (now limit : ℕ)
  | releaseInFlightMutations (mutationIds : List String)
  | recoverInFlightMutations
  | applyMutationOutcome (now : ℕ) (outcome : MutationOutcome)
  | applyChangesPage (now : ℕ) (utcNow : Int) (page : ChangesPage)
  | resolveKeepLocal (now : ℕ) (mutationId skillId : String) (confirmed : Bool)
  | resolveKeepRemote (skillId : String) (confirmed : Bool)
  | expireDueEntitlements (utcNow : Int)
  | markSkillHydrated (skillId expectedManifestHash : String) (workspacePath : PathBuf)
  | claimSkillForEviction (skillId expectedSnapshotHash : String)
  | writeDeployments (deployments : DeploymentTable)
  | writeSyncState (syncState : LocalSyncState)

/-- The new store of a transaction that commits. -/
def committed {α : Type} (tx : Except LocalStoreError (LocalStore × α)) : Option LocalStore :=
  match tx with
  | .ok (store, _) => some store
  | .error _ => none

theorem committed_eq_some {α : Type} {tx : Except LocalStoreError (LocalStore × α)}
    {store : LocalStore} : committed tx = some store ↔ ∃ a, tx = .ok (store, a) := by
  cases tx with
  | error e => simp [committed]
  | ok out =>
    obtain ⟨store', a⟩ := out
    simp [committed]

/-- The outcome belongs to a mutation in flight and is well formed. -/
def AcceptsOutcome (store : LocalStore) (outcome : MutationOutcome) : Prop :=
  (∃ m ∈ store.mutation? outcome.mutationId, m.state = .inFlight) ∧ outcome.IsWellFormed

instance (store : LocalStore) (outcome : MutationOutcome) :
    Decidable (store.AcceptsOutcome outcome) :=
  inferInstanceAs (Decidable (_ ∧ _))

def storeStep (host : Host) (store : LocalStore) : StoreAction → Option LocalStore
  | .commitSkillEdit now mutationId edit => committed (store.commitSkillEdit now mutationId edit)
  | .queueSkillDelete now mutationId skillId baseRevision =>
    committed (store.queueSkillDelete now mutationId skillId baseRevision)
  | .claimDispatchableMutations now limit => committed (store.claimDispatchableMutations now limit)
  | .releaseInFlightMutations mutationIds => some (store.releaseInFlightMutations mutationIds)
  | .recoverInFlightMutations => some store.recoverInFlightMutations
  | .applyMutationOutcome now outcome =>
    if store.AcceptsOutcome outcome then committed (store.applyMutationOutcome now outcome) else none
  | .applyChangesPage now utcNow page => committed (applyChangesPage host store now utcNow page)
  | .resolveKeepLocal now mutationId skillId confirmed =>
    committed (store.resolveKeepLocal now mutationId skillId confirmed)
  | .resolveKeepRemote skillId confirmed => committed (store.resolveKeepRemote skillId confirmed)
  | .expireDueEntitlements utcNow => some (expireDueEntitlements host.toChrono store utcNow).1
  | .markSkillHydrated skillId expectedManifestHash workspacePath =>
    committed (store.markSkillHydrated skillId expectedManifestHash workspacePath)
  | .claimSkillForEviction skillId expectedSnapshotHash =>
    some (store.claimSkillForEviction skillId expectedSnapshotHash).1
  | .writeDeployments deployments => some { store with deployments }
  | .writeSyncState syncState => some { store with syncState }

/-- The desktop store on one machine, from a fresh install on. -/
def system (host : Host) : TransitionSystem LocalStore StoreAction where
  init := fun store ↦ store = fresh
  step := storeStep host

abbrev Reachable (host : Host) (store : LocalStore) : Prop := (system host).Reachable store

end LocalStore

end SkillHive
