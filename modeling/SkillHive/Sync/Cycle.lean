import SkillHive.Foundation.Program
import SkillHive.Sync.Push

/-!
# The worker cycle

One cycle of the sync worker: open the session, register the device, push a claimed batch,
drain the change feed. The cycle is a program over the local store, every call to the store
being a transaction of its own.

What the cycle meets outside the store is its `Environment`: the replies of the server, the
files of the blob store, the clock, and the failures of SQLite that no modelled check
explains (a full disk, a poisoned lock), which may strike any call. A reply may depend on
the request; a batch holds every mutation once, so this gives any sequence of replies.
-/

namespace SkillHive

open Foundation LocalStore

namespace Sync

def maxMutationsPerCycle : ℕ := 50

def maxPagesPerCycle : ℕ := 100

/-! ## Errors of a cycle -/

inductive CycleFailure where
  | localStore (error : LocalStoreError)
  | negotiation (error : NegotiationError)
  | pull (error : PullError)
  | client (error : SyncClientError)
  | message (text : String)
  deriving DecidableEq, Repr

inductive SyncCycleError where
  | notSignedIn
  | scopeMismatch (message : String)
  | authentication (error : SyncClientError)
  | failed (stage : String) (source : CycleFailure)
  deriving DecidableEq, Repr

def CycleFailure.text (databaseText : DatabaseError → String) : CycleFailure → String
  | localStore error => localStoreText databaseText error
  | negotiation error => error.text
  | pull error => error.text databaseText
  | client error => error.text
  | message text => text

/-- `failure_message` -/
def failureMessage (databaseText : DatabaseError → String) : SyncCycleError → String
  | .notSignedIn => "not signed in"
  | .scopeMismatch message => s!"local sync scope mismatch: {message}"
  | .authentication error => s!"authentication/device failure: {error.text}"
  | .failed stage source => s!"{stage}: {source.text databaseText}"

/-- `From<LocalStoreError> for SyncCycleError` -/
def SyncCycleError.ofLocalStore (error : LocalStoreError) : SyncCycleError :=
  .failed "local store" (.localStore error)

/-- `classify_session_failure` -/
def classifySessionFailure : SyncClientError → SyncCycleError
  | .notSignedIn => .notSignedIn
  | .authentication code status => .authentication (.authentication code status)
  | other => .failed "session refresh" (.client other)

/-! ## The environment -/

/-- The calls to the store that a cycle makes. -/
inductive StoreCall where
  | assertServerScope
  | ensureClientInstanceId
  | syncState
  | recordAuthenticatedDevice
  | claimDispatchableMutations
  | getSkill (mutationId : String)
  | deviceId (mutationId : String)
  | applyMutationOutcome (mutationId : String)
  | releaseInFlightMutations
  | recordPushSuccess
  | syncCursor (page : ℕ)
  | applyChangesPage (page : ℕ)
  | recordSyncError
  | expireDueEntitlements
  deriving DecidableEq, Repr

/-- A page of the feed with the number of blobs downloaded for it. -/
structure FetchedPage where
  page : ChangesPage
  blobsDownloaded : ℕ

structure Environment where
  host : Host
  baseUrl : String
  displayName : String
  platform : String
  appVersion : String
  /-- The identifier drawn when the store holds none. -/
  freshInstanceId : String
  databaseText : DatabaseError → String
  fault : StoreCall → Option LocalStoreError
  clock : StoreCall → ℕ
  utcNow : StoreCall → Int
  ensureAccessToken : Except SyncClientError Unit
  registerDevice : DeviceRegistrationRequest → Except SyncClientError DeviceRegistration
  syncSnapshotClosure : LocalMutation → Except NegotiationError Unit
  submitMutation : MutationRequest → Except SyncClientError MutationResponse
  fetchPage : ℕ → Option String → Except PullError FetchedPage
  submit_answers : ∀ request response, submitMutation request = .ok response →
    response.Answers request

namespace Environment

variable (env : Environment)

/-- One call to the store: an injected failure, or the transaction. -/
def call {α : Type} (site : StoreCall)
    (tx : LocalStore → Except LocalStoreError (LocalStore × α)) :
    Program LocalStore LocalStoreError α :=
  Program.transaction fun store ↦
    match env.fault site with
    | some error => .error error
    | none => tx store

/-- A call whose failure fails the cycle. -/
def storeCall {α : Type} (site : StoreCall)
    (tx : LocalStore → Except LocalStoreError (LocalStore × α)) :
    Program LocalStore SyncCycleError α := do
  match ← Program.attempt (env.call site tx) with
  | .ok a => pure a
  | .error error => throw (.ofLocalStore error)

/-- `sync_state` -/
def syncState (site : StoreCall) : Program LocalStore SyncCycleError LocalSyncState :=
  env.storeCall site fun store ↦ .ok (store, store.syncState)

/-! ## Session and device -/

/-- The first part of `run_cycle_inner`: the scope of the store and the access token. -/
def openSession : Program LocalStore SyncCycleError Unit := do
  match ← Program.attempt (env.call .assertServerScope fun store ↦ do
      store.assertServerScope env.baseUrl
      .ok (store, ())) with
  | .error error => throw (.scopeMismatch (localStoreText env.databaseText error))
  | .ok () =>
    match env.ensureAccessToken with
    | .error error => throw (classifySessionFailure error)
    | .ok () => pure ()

/-- The stored device, user or server is not the one of the session. -/
def isOtherDevice (state : LocalSyncState) (device : DeviceRegistration) : Bool :=
  state.deviceId ≠ some device.deviceId ∨ state.serverUserId ≠ some device.userId ∨
    state.serverUrl ≠ some env.baseUrl

/-- The registration that a cycle asserts. -/
def registration (clientInstanceId : String) : DeviceRegistrationRequest where
  protocolVersion := 1
  clientInstanceId := clientInstanceId
  displayName := env.displayName
  platform := env.platform
  appVersion := env.appVersion

/-- What `run_cycle_inner` does with the registered device: check it and record it. -/
def adoptDevice (device : DeviceRegistration) :
    Program LocalStore SyncCycleError DeviceRegistration :=
  if device.isRevoked then throw (.authentication (.authentication "DEVICE_REVOKED" 403))
  else do
    let state ← env.syncState .syncState
    if ∃ userId ∈ state.serverUserId, userId ≠ device.userId then
      throw (.scopeMismatch "authenticated user differs from the durable local scope")
    else if env.isOtherDevice state device then do
      env.storeCall .recordAuthenticatedDevice fun store ↦ do
        let store ← store.recordAuthenticatedDevice env.baseUrl
          (state.serverLoginIdentity.getD "sync-worker") device.clientInstanceId
          device.deviceId device.userId
        .ok (store, ())
      pure device
    else pure device

/-- The second part of `run_cycle_inner`: the registration of this installation. -/
def ensureDevice : Program LocalStore SyncCycleError DeviceRegistration := do
  let clientInstanceId ← env.storeCall .ensureClientInstanceId fun store ↦
    .ok (store.ensureClientInstanceId env.freshInstanceId)
  match env.registerDevice (env.registration clientInstanceId) with
  | .error error => throw (classifySessionFailure error)
  | .ok device => env.adoptDevice device

/-- The session and the device of the cycle, or the error that ends it before the push. -/
def session : Program LocalStore SyncCycleError DeviceRegistration := do
  env.openSession
  env.ensureDevice

/-! ## Push -/

/-- `apply_mutation_outcome`, called for the mutation under dispatch. -/
def applyOutcome (m : LocalMutation) (outcome : MutationOutcome) :
    Program LocalStore SyncCycleError Unit := do
  let _ ← env.storeCall (.applyMutationOutcome m.id) fun store ↦
    store.applyMutationOutcome (env.clock (.applyMutationOutcome m.id)) outcome
  pure ()

/-- `device_id_for` -/
def deviceIdFor (m : LocalMutation) : Program LocalStore SyncCycleError String := do
  let state ← env.syncState (.deviceId m.id)
  match state.deviceId with
  | some deviceId => pure deviceId
  | none =>
    throw (.failed "device registration" (.message "device ID missing after registration"))

/-- The request of `dispatch_mutation` and what follows from its reply. -/
def submitClaimed (m : LocalMutation) : Program LocalStore SyncCycleError Unit := do
  let skill ← env.storeCall (.getSkill m.id) fun store ↦ .ok (store, store.skill? m.skillId)
  let deviceId ← env.deviceIdFor m
  match env.submitMutation (mutationRequest deviceId m skill) with
  | .ok response => env.applyOutcome m response.intoOutcome
  | .error error =>
    -- A session failure leaves the mutation to nobody: no outcome is applied to it.
    if error.isSessionError then throw (.authentication error)
    else do
      env.applyOutcome m (failureOutcome m.id error)
      throw (.failed "mutation submit" (.client error))

/-- `dispatch_mutation` -/
def dispatchMutation (m : LocalMutation) : Program LocalStore SyncCycleError Unit :=
  if m.operation = .delete then env.submitClaimed m
  else
    match env.syncSnapshotClosure m with
    | .ok () => env.submitClaimed m
    | .error error => do
      env.applyOutcome m (uploadFailureOutcome m.id error)
      throw (.failed "package negotiation" (.negotiation error))

/-- `release_in_flight_mutations`; an empty tail is no transaction. -/
def releaseTail (tail : List LocalMutation) : Program LocalStore SyncCycleError Unit :=
  if tail = [] then pure ()
  else env.storeCall .releaseInFlightMutations fun store ↦
    .ok (store.releaseInFlightMutations (tail.map LocalMutation.id), ())

/-- The loop over the claimed batch: how many were pushed, and what stopped it. -/
def pushBatch : List LocalMutation → Program LocalStore SyncCycleError (ℕ × Option SyncCycleError)
  | [] => pure (0, none)
  | m :: tail => do
    match ← Program.attempt (env.dispatchMutation m) with
    | .ok () => do
      let (pushed, failure) ← pushBatch tail
      pure (pushed + 1, failure)
    | .error error => do
      env.releaseTail tail
      pure (0, some error)

/-- `record_push_success`, unless a dispatch failed. -/
def recordPush (result : ℕ × Option SyncCycleError) :
    Program LocalStore SyncCycleError (ℕ × Option SyncCycleError) :=
  if result.2 = none then do
    env.storeCall .recordPushSuccess fun store ↦
      .ok (store.recordPushSuccess (env.clock .recordPushSuccess), ())
    pure result
  else pure result

/-- The third part of `run_cycle_inner`. -/
def push : Program LocalStore SyncCycleError (ℕ × Option SyncCycleError) := do
  let claimed ← env.storeCall .claimDispatchableMutations fun store ↦
    store.claimDispatchableMutations (env.clock .claimDispatchableMutations) maxMutationsPerCycle
  let result ← env.pushBatch claimed
  env.recordPush result

/-! ## Pull -/

structure PullSummary where
  pagesApplied : ℕ
  upserts : ℕ
  tombstones : ℕ
  conflictsDetected : ℕ
  blobsDownloaded : ℕ
  hasMore : Bool
  deriving DecidableEq, Repr

/-- A store call of the pull, whose errors are those of the pull. -/
def pullCall {α : Type} (site : StoreCall)
    (tx : LocalStore → Except LocalStoreError (LocalStore × α)) :
    Program LocalStore PullError α := do
  match ← Program.attempt (env.call site tx) with
  | .ok a => pure a
  | .error error => throw (.localStore error)

/-- `pull_changes`; the first argument counts the pages that the cycle may still apply. -/
def pullChanges : ℕ → PullSummary → Program LocalStore PullError PullSummary
  | 0, summary => pure summary
  | remaining + 1, summary => do
    let number := summary.pagesApplied
    let cursor ← env.pullCall (.syncCursor number) fun store ↦
      .ok (store, store.syncState.serverCursor)
    match env.fetchPage number cursor with
    | .error error => throw error
    | .ok fetched => do
      let applied ← env.pullCall (.applyChangesPage number) fun store ↦
        applyChangesPage env.host store (env.clock (.applyChangesPage number))
          (env.utcNow (.applyChangesPage number)) fetched.page
      let summary : PullSummary :=
        { pagesApplied := number + 1
          upserts := summary.upserts + applied.upserts
          tombstones := summary.tombstones + applied.tombstones
          conflictsDetected := summary.conflictsDetected + applied.conflictsDetected
          blobsDownloaded := summary.blobsDownloaded + fetched.blobsDownloaded
          hasMore := fetched.page.hasMore }
      if fetched.page.hasMore then pullChanges remaining summary else pure summary

/-! ## The cycle -/

structure SyncCycleReport where
  pushed : ℕ
  pulled : Bool
  pagesApplied : ℕ
  upserts : ℕ
  tombstones : ℕ
  conflictsDetected : ℕ
  blobsDownloaded : ℕ
  stoppedReason : Option String
  deriving DecidableEq, Repr

/-- The last part of `run_cycle_inner`: drain the feed, then expire the leases. -/
def pull (pushed : ℕ) (failure : Option SyncCycleError) :
    Program LocalStore SyncCycleError SyncCycleReport := do
  match ← Program.attempt (env.pullChanges maxPagesPerCycle ⟨0, 0, 0, 0, 0, false⟩) with
  | .error error => do
    env.storeCall .recordSyncError fun store ↦ do
      let store ← store.recordSyncError (error.text env.databaseText)
      .ok (store, ())
    throw (.failed "pull" (.pull error))
  | .ok pull => do
    let _ ← env.storeCall .expireDueEntitlements fun store ↦
      .ok (expireDueEntitlements env.host.toChrono store (env.utcNow .expireDueEntitlements))
    pure
      { pushed := pushed
        pulled := true
        pagesApplied := pull.pagesApplied
        upserts := pull.upserts
        tombstones := pull.tombstones
        conflictsDetected := pull.conflictsDetected
        blobsDownloaded := pull.blobsDownloaded
        stoppedReason := failure.map (failureMessage env.databaseText) }

/-- `run_cycle_inner` -/
def runCycle : Program LocalStore SyncCycleError SyncCycleReport := do
  let _ ← env.session
  let (pushed, failure) ← env.push
  env.pull pushed failure

end Environment

end Sync

end SkillHive
