import SkillHive.LocalStore.InFlight
import SkillHive.Sync.CycleSettles

/-!
# A refused cursor

The server refuses a cursor that predates its retained history with the status 410. The
client classifies the status as a server error, the pull ends with it, and the cycle fails
after recording a diagnostic. The cursor is written by the page that a pull applies and by
nothing else in a cycle, so the next cycle asks with the cursor that was refused.
-/

namespace SkillHive

open Foundation LocalStore

namespace Sync

/-! ## The worker -/

/-- The action neither applies a page nor replaces the synchronization row. -/
def leavesFeed : StoreAction → Bool
  | .applyChangesPage .. | .writeSyncState .. => false
  | _ => true

/-- What happens on a signed-in desktop: a cycle of the worker in some environment, or an
operation of the user interface on the store. -/
inductive WorkerAction where
  | cycle (env : Environment)
  | store (host : Host) (action : StoreAction)

/-- The desktop over cycles; a session that the user ends is not among the actions. -/
def worker : TransitionSystem LocalStore WorkerAction where
  init _ := True
  step store
    | .cycle env => some (env.runCycle.exec store).2
    | .store host action => if leavesFeed action then storeStep host store action else none

/-- `SYNC_CURSOR_EXPIRED`, as the client classifies it. -/
def cursorExpired : PullError := .http (classifyStatus 410 (some "SYNC_CURSOR_EXPIRED"))

/-- Every pull from the cursor is refused. -/
def Environment.Refuses (env : Environment) (cursor : String) : Prop :=
  ∀ page, env.fetchPage page (some cursor) = .error cursorExpired

/-- No pull from the cursor is answered with a page: it is refused, or it fails otherwise. -/
def Environment.Unserved (env : Environment) (cursor : String) : Prop :=
  ∀ page fetched, env.fetchPage page (some cursor) ≠ .ok fetched

theorem Environment.Refuses.unserved {env : Environment} {cursor : String}
    (h : env.Refuses cursor) : env.Unserved cursor := by
  intro page fetched hpage
  cases (h page).symm.trans hpage

/-- No cycle gets a page from the cursor. -/
def WorkerAction.Unserved (cursor : String) : WorkerAction → Prop
  | .cycle env => env.Unserved cursor
  | .store _ _ => True

/-! ## Operations of the store -/

theorem storeStep_syncState {host : Host} {store store' : LocalStore} {action : StoreAction}
    (hfeed : leavesFeed action = true) (h : storeStep host store action = some store') :
    store'.syncState = store.syncState := by
  cases action with
  | commitSkillEdit now mutationId edit =>
    obtain ⟨m, h⟩ := committed_eq_some.mp h
    rw [(commitSkillEdit_spec h).2.2.2.2]
  | queueSkillDelete now mutationId skillId baseRevision =>
    obtain ⟨m, h⟩ := committed_eq_some.mp h
    obtain ⟨row, -, -, -, -, hstore⟩ := queueSkillDelete_spec h
    rw [hstore]
  | claimDispatchableMutations now limit =>
    obtain ⟨claimed, h⟩ := committed_eq_some.mp h
    rw [(claimDispatchableMutations_spec h).1]
  | releaseInFlightMutations mutationIds =>
    cases h
    rfl
  | recoverInFlightMutations =>
    cases h
    rfl
  | applyMutationOutcome now outcome =>
    rw [storeStep] at h
    split at h
    · obtain ⟨applied, h⟩ := committed_eq_some.mp h
      exact applyMutationOutcome_syncState h
    · cases h
  | applyChangesPage now utcNow page => cases hfeed
  | resolveKeepLocal now mutationId skillId confirmed =>
    obtain ⟨applied, h⟩ := committed_eq_some.mp h
    obtain ⟨row, revision, -, -, -, -, -, hstore⟩ := resolveKeepLocal_spec h
    rw [hstore]
  | resolveKeepRemote skillId confirmed =>
    obtain ⟨applied, h⟩ := committed_eq_some.mp h
    obtain ⟨row, package, -, -, -, -, -, hstore⟩ := resolveKeepRemote_spec h
    rw [hstore]
  | expireDueEntitlements utcNow =>
    cases h
    exact (foldl_expireSkill_spec store _).2.2.2
  | markSkillHydrated skillId expectedManifestHash workspacePath =>
    obtain ⟨hydrated, h⟩ := committed_eq_some.mp h
    obtain ⟨row, -, -, -, hstore⟩ := markSkillHydrated_spec h
    rw [hstore]
  | claimSkillForEviction skillId expectedSnapshotHash =>
    cases h
    rcases claimSkillForEviction_spec store skillId expectedSnapshotHash with
      hstore | ⟨row, -, -, hstore⟩
    · rw [hstore]
    · rw [hstore]
  | writeDeployments deployments =>
    cases h
    rfl
  | writeSyncState syncState => cases hfeed

namespace Environment

variable {env : Environment} {cursor : String} {store store' : LocalStore}

/-! ## The cursor under a bound scope -/

/-- The feed cursor of a store that is bound to a server and an account. -/
structure Bound (cursor : String) (store : LocalStore) : Prop where
  serverCursor : store.syncState.serverCursor = some cursor
  serverUrl : store.syncState.serverUrl.isSome
  serverLoginIdentity : store.syncState.serverLoginIdentity.isSome
  serverUserId : store.syncState.serverUserId.isSome

/-- The step keeps the cursor of a bound store. -/
def KeepsBound (cursor : String) (store store' : LocalStore) : Prop :=
  Bound cursor store → Bound cursor store'

theorem KeepsBound.refl (store : LocalStore) : KeepsBound cursor store store := id

theorem KeepsBound.trans (s t u : LocalStore) (h : KeepsBound cursor s t)
    (h' : KeepsBound cursor t u) : KeepsBound cursor s u := h' ∘ h

theorem KeepsBound.of_syncState (h : store'.syncState = store.syncState) :
    KeepsBound cursor store store' := by
  rintro ⟨hcursor, hurl, hlogin, huser⟩
  rw [← h] at hcursor hurl hlogin huser
  exact ⟨hcursor, hurl, hlogin, huser⟩

/-- A call that leaves the synchronization row alone keeps the cursor. -/
theorem frames_storeCall_bound {α : Type} {site : StoreCall}
    {tx : LocalStore → Except LocalStoreError (LocalStore × α)}
    (htx : ∀ s s' a, tx s = .ok (s', a) → s'.syncState = s.syncState) :
    Program.Frames (KeepsBound cursor) (env.storeCall site tx) :=
  frames_storeCall KeepsBound.refl fun s s' a h ↦ .of_syncState (htx s s' a h)

theorem exec_openSession (env : Environment) (store : LocalStore) :
    (env.openSession.exec store).2 = store ∧
      ((env.openSession.exec store).1 = .ok () →
        store.assertServerScope env.baseUrl = .ok ()) := by
  unfold openSession
  rw [Program.exec_bind_ok (Program.exec_attempt _ _)]
  cases hfault : env.fault .assertServerScope with
  | some error =>
    rw [call, Program.exec_transaction_error (by rw [hfault])]
    exact ⟨rfl, fun h ↦ by cases h⟩
  | none =>
    cases hscope : store.assertServerScope env.baseUrl with
    | error error =>
      rw [call, Program.exec_transaction_error (by rw [hfault, hscope]; rfl)]
      exact ⟨rfl, fun h ↦ by cases h⟩
    | ok =>
      rw [call, Program.exec_transaction_ok (by rw [hfault, hscope]; rfl)]
      refine ⟨?_, fun _ ↦ rfl⟩
      dsimp only
      cases env.ensureAccessToken with
      | error error => rfl
      | ok => rfl

/-- A store with a cursor that passes the scope check is bound. -/
theorem bound_of_assertServerScope {serverUrl : String}
    (hcursor : store.syncState.serverCursor = some cursor)
    (h : store.assertServerScope serverUrl = .ok ()) : Bound cursor store := by
  obtain ⟨_, -, h⟩ := bind_eq_ok.mp h
  have hscope := require_eq_ok.mp h
  simp only [hcursor, Option.isSome_some, Bool.or_true, true_and, not_or, not_and] at hscope
  obtain ⟨-, ⟨hurl, hlogin, huser⟩, -⟩ := hscope
  exact ⟨hcursor, Option.isSome_iff_ne_none.mpr hurl, Option.isSome_iff_ne_none.mpr hlogin,
    Option.isSome_iff_ne_none.mpr huser⟩

/-- The device of a bound store is recorded under the cursor that it has. -/
theorem recordAuthenticatedDevice_keepsBound
    {serverUrl loginIdentity clientInstanceId deviceId serverUserId : String}
    (h : store.recordAuthenticatedDevice serverUrl loginIdentity clientInstanceId deviceId
      serverUserId = .ok store') : KeepsBound cursor store store' := by
  rintro ⟨hcursor, hurl, hlogin, huser⟩
  obtain ⟨_, -, h⟩ := bind_eq_ok.mp h
  obtain ⟨_, -, h⟩ := bind_eq_ok.mp h
  obtain ⟨_, -, h⟩ := bind_eq_ok.mp h
  obtain ⟨_, -, h⟩ := bind_eq_ok.mp h
  obtain ⟨_, -, h⟩ := bind_eq_ok.mp h
  obtain ⟨_, -, h⟩ := bind_eq_ok.mp h
  cases h
  refine ⟨?_, rfl, rfl, rfl⟩
  simp only [hurl, hlogin, huser, Bool.and_self, if_true]
  exact hcursor

theorem adoptDevice_frames (device : DeviceRegistration) :
    Program.Frames (KeepsBound cursor) (env.adoptDevice device) := by
  unfold adoptDevice
  split
  · exact Program.Frames.throw KeepsBound.refl _
  apply Program.Frames.bind KeepsBound.trans
  · apply frames_storeCall_bound
    intro s s' a h
    cases h
    rfl
  intro state
  split
  · exact Program.Frames.throw KeepsBound.refl _
  split
  · apply Program.Frames.bind KeepsBound.trans
    · apply frames_storeCall KeepsBound.refl
      intro s s' a h
      obtain ⟨recorded, hrecorded, h⟩ := bind_eq_ok.mp h
      cases h
      exact recordAuthenticatedDevice_keepsBound hrecorded
    · exact fun _ ↦ Program.Frames.pure KeepsBound.refl device
  · exact Program.Frames.pure KeepsBound.refl device

theorem ensureDevice_frames : Program.Frames (KeepsBound cursor) env.ensureDevice := by
  apply Program.Frames.bind KeepsBound.trans
  · apply frames_storeCall KeepsBound.refl
    intro s s' a h
    have hstore : s' = (s.ensureClientInstanceId env.freshInstanceId).1 :=
      (congrArg Prod.fst (Except.ok.inj h)).symm
    rw [hstore, ensureClientInstanceId]
    split
    · exact .refl s
    · exact fun hbound ↦ ⟨hbound.1, hbound.2, hbound.3, hbound.4⟩
  · intro clientInstanceId
    cases env.registerDevice (env.registration clientInstanceId) with
    | error error => exact Program.Frames.throw KeepsBound.refl _
    | ok device => exact adoptDevice_frames device

/-! ## The push -/

theorem applyOutcome_frames (m : LocalMutation) (outcome : MutationOutcome) :
    Program.Frames (KeepsBound cursor) (env.applyOutcome m outcome) := by
  apply Program.Frames.bind KeepsBound.trans
  · exact frames_storeCall_bound fun s s' applied h ↦ applyMutationOutcome_syncState h
  · exact fun _ ↦ Program.Frames.pure KeepsBound.refl ()

theorem submitClaimed_frames (m : LocalMutation) :
    Program.Frames (KeepsBound cursor) (env.submitClaimed m) := by
  have hread : ∀ {α : Type} (site : StoreCall) (f : LocalStore → α),
      Program.Frames (KeepsBound cursor) (env.storeCall site fun s ↦ .ok (s, f s)) := by
    intro α site f
    apply frames_storeCall_bound
    intro s s' a h
    cases h
    rfl
  apply Program.Frames.bind KeepsBound.trans (hread _ _)
  intro skill
  apply Program.Frames.bind KeepsBound.trans
  · apply Program.Frames.bind KeepsBound.trans (hread _ _)
    intro state
    cases state.deviceId with
    | none => exact Program.Frames.throw KeepsBound.refl _
    | some deviceId => exact Program.Frames.pure KeepsBound.refl deviceId
  intro deviceId
  cases env.submitMutation (mutationRequest deviceId m skill) with
  | ok response => exact applyOutcome_frames m _
  | error error =>
    dsimp only
    split
    · exact Program.Frames.throw KeepsBound.refl _
    · apply Program.Frames.bind KeepsBound.trans (applyOutcome_frames m _)
      exact fun _ ↦ Program.Frames.throw KeepsBound.refl _

theorem dispatchMutation_frames (m : LocalMutation) :
    Program.Frames (KeepsBound cursor) (env.dispatchMutation m) := by
  unfold dispatchMutation
  split
  · exact submitClaimed_frames m
  · cases env.syncSnapshotClosure m with
    | ok => exact submitClaimed_frames m
    | error error =>
      apply Program.Frames.bind KeepsBound.trans (applyOutcome_frames m _)
      exact fun _ ↦ Program.Frames.throw KeepsBound.refl _

theorem pushBatch_frames (batch : List LocalMutation) :
    Program.Frames (KeepsBound cursor) (env.pushBatch batch) := by
  induction batch with
  | nil => exact Program.Frames.pure KeepsBound.refl _
  | cons m tail ih =>
    apply Program.Frames.bind KeepsBound.trans
    · exact Program.Frames.attempt (dispatchMutation_frames m)
    intro result
    cases result with
    | ok =>
      apply Program.Frames.bind KeepsBound.trans ih
      exact fun _ ↦ Program.Frames.pure KeepsBound.refl _
    | error error =>
      apply Program.Frames.bind KeepsBound.trans
      · unfold releaseTail
        split
        · exact Program.Frames.pure KeepsBound.refl ()
        · apply frames_storeCall_bound
          intro s s' a h
          cases h
          rfl
      · exact fun _ ↦ Program.Frames.pure KeepsBound.refl _

theorem push_frames : Program.Frames (KeepsBound cursor) env.push := by
  apply Program.Frames.bind KeepsBound.trans
  · apply frames_storeCall_bound
    intro s s' claimed h
    rw [(claimDispatchableMutations_spec h).1]
  intro claimed
  apply Program.Frames.bind KeepsBound.trans (pushBatch_frames claimed)
  intro result
  unfold recordPush
  split
  · apply Program.Frames.bind KeepsBound.trans
    · apply frames_storeCall KeepsBound.refl
      intro s s' a h
      cases h
      exact fun hbound ↦ ⟨hbound.1, hbound.2, hbound.3, hbound.4⟩
    · exact fun _ ↦ Program.Frames.pure KeepsBound.refl _
  · exact Program.Frames.pure KeepsBound.refl _

/-! ## The pull -/

/-- The pull reads the cursor, gets no page and changes nothing. -/
theorem exec_pullChanges_unserved (hunserved : env.Unserved cursor)
    (hcursor : store.syncState.serverCursor = some cursor) (remaining : ℕ)
    (summary : PullSummary) :
    ∃ error, (env.pullChanges (remaining + 1) summary).exec store = (.error error, store) := by
  rw [pullChanges]
  cases hfault : env.fault (.syncCursor summary.pagesApplied) with
  | some error =>
    refine ⟨.localStore error, Program.exec_bind_error ?_⟩
    rw [pullCall, Program.exec_bind_ok (Program.exec_attempt _ _), call,
      Program.exec_transaction_error (by rw [hfault])]
    rfl
  | none =>
    have hread : (env.pullCall (.syncCursor summary.pagesApplied) fun store ↦
        .ok (store, store.syncState.serverCursor)).exec store = (.ok (some cursor), store) := by
      rw [pullCall, Program.exec_bind_ok (Program.exec_attempt _ _), call,
        Program.exec_transaction_ok (by rw [hfault, hcursor])]
      rfl
    rw [Program.exec_bind_ok hread]
    cases hpage : env.fetchPage summary.pagesApplied (some cursor) with
    | error error => exact ⟨error, rfl⟩
    | ok fetched => exact absurd hpage (hunserved _ fetched)

/-- A pull without a page fails the cycle. The rows stay, the outbox among them. -/
theorem exec_pull_unserved (hunserved : env.Unserved cursor) (hbound : Bound cursor store)
    (pushed : ℕ) (failure : Option SyncCycleError) :
    (∀ report, ((env.pull pushed failure).exec store).1 ≠ .ok report) ∧
      Bound cursor ((env.pull pushed failure).exec store).2 ∧
      WritesSyncState store ((env.pull pushed failure).exec store).2 := by
  obtain ⟨error, hpull⟩ :=
    exec_pullChanges_unserved hunserved hbound.serverCursor 99 ⟨0, 0, 0, 0, 0, false⟩
  rw [pull, maxPagesPerCycle, Program.exec_bind_ok (Program.exec_attempt _ _), hpull]
  rcases exec_storeCall_cases env .recordSyncError (fun s ↦ do
      let s ← s.recordSyncError (error.text env.databaseText)
      .ok (s, ())) store with ⟨recording, h⟩ | ⟨s, _, -, htx, h⟩
  · rw [Program.exec_bind_error h]
    exact ⟨fun report heq ↦ (by cases heq), hbound, .refl store⟩
  · obtain ⟨recorded, hrecorded, htx⟩ := bind_eq_ok.mp htx
    cases htx
    obtain ⟨_, -, hrecorded⟩ := bind_eq_ok.mp hrecorded
    cases hrecorded
    rw [Program.exec_bind_ok h]
    exact ⟨fun report heq ↦ (by cases heq), ⟨hbound.1, hbound.2, hbound.3, hbound.4⟩, ⟨_, rfl⟩⟩

/-! ## The cycle -/

/-- A cycle that gets no page from the cursor fails and keeps the cursor. -/
theorem exec_runCycle_unserved (hunserved : env.Unserved cursor)
    (hcursor : store.syncState.serverCursor = some cursor) :
    (∀ report, (env.runCycle.exec store).1 ≠ .ok report) ∧
      (env.runCycle.exec store).2.syncState.serverCursor = some cursor := by
  obtain ⟨hopen, hscope⟩ := exec_openSession env store
  have hfails : ∀ {α : Type} {p : Program LocalStore SyncCycleError α} {error : SyncCycleError}
      {s : LocalStore}, p.exec store = (.error error, s) →
      s.syncState.serverCursor = some cursor →
      (∀ a, (p.exec store).1 ≠ .ok a) ∧
        (p.exec store).2.syncState.serverCursor = some cursor := by
    intro α p error s h hs
    rw [h]
    exact ⟨fun a heq ↦ (by cases heq), hs⟩
  rcases h : env.openSession.exec store with ⟨error | ⟨⟩, s⟩
  · rw [h] at hopen
    subst hopen
    exact hfails (Program.exec_bind_error (Program.exec_bind_error h)) hcursor
  · rw [h] at hopen hscope
    subst hopen
    have hbound : Bound cursor s := bound_of_assertServerScope hcursor (hscope rfl)
    have hdevice : Bound cursor (env.ensureDevice.exec s).2 := ensureDevice_frames s hbound
    rcases h' : env.ensureDevice.exec s with ⟨error | device, t⟩
    · rw [h'] at hdevice
      have hsession : env.session.exec s = (.error error, t) := by
        rw [session, Program.exec_bind_ok h]
        exact h'
      exact hfails (Program.exec_bind_error hsession) hdevice.serverCursor
    · rw [h'] at hdevice
      have hsession : env.session.exec s = (.ok device, t) := by
        rw [session, Program.exec_bind_ok h]
        exact h'
      have hpush : Bound cursor (env.push.exec t).2 := push_frames t hdevice
      rw [runCycle, Program.exec_bind_ok hsession]
      rcases h'' : env.push.exec t with ⟨error | ⟨pushed, failure⟩, u⟩
      · rw [h''] at hpush
        rw [Program.exec_bind_error h'']
        exact ⟨fun report heq ↦ (by cases heq), hpush.serverCursor⟩
      · rw [h''] at hpush
        rw [Program.exec_bind_ok h'']
        obtain ⟨hreport, hafter, -⟩ := exec_pull_unserved hunserved hpush pushed failure
        exact ⟨hreport, hafter.serverCursor⟩

end Environment

/-! ## Runs of the worker -/

variable {cursor : String} {store store' : LocalStore}

theorem worker_step_cursor {action : WorkerAction} (hunserved : action.Unserved cursor)
    (hcursor : store.syncState.serverCursor = some cursor)
    (h : worker.step store action = some store') :
    store'.syncState.serverCursor = some cursor := by
  cases action with
  | cycle env =>
    cases h
    exact (Environment.exec_runCycle_unserved hunserved hcursor).2
  | store host action =>
    simp only [worker] at h
    split at h
    case isTrue hfeed => rw [storeStep_syncState hfeed h, hcursor]
    case isFalse => cases h

theorem run_cursor_of_unserved {actions : List WorkerAction}
    (hunserved : worker.EachStep (fun _ action ↦ action.Unserved cursor) store actions)
    (hcursor : store.syncState.serverCursor = some cursor)
    (h : worker.run store actions = some store') :
    store'.syncState.serverCursor = some cursor := by
  apply TransitionSystem.EachStep.run ?_ hunserved hcursor h
  exact fun _ _ _ hs hc hstep ↦ worker_step_cursor hc hs hstep

/-- The desktop has recovered from a refused cursor: it gave the cursor up, or its next
cycle completes a pull. -/
def Recovered (cursor : String) (env : Environment) (store : LocalStore) : Prop :=
  store.syncState.serverCursor ≠ some cursor ∨ ∃ report, (env.runCycle.exec store).1 = .ok report

/-- After a cycle whose cursor was refused, no run of the worker recovers while the server
serves no page from that cursor, whatever it would serve from the start of the feed. -/
theorem run_never_recovered {refusing env : Environment} {actions : List WorkerAction}
    (hcursor : store.syncState.serverCursor = some cursor) (hrefused : refusing.Refuses cursor)
    (hunserved : worker.EachStep (fun _ action ↦ action.Unserved cursor)
      (refusing.runCycle.exec store).2 actions)
    (hrun : worker.run (refusing.runCycle.exec store).2 actions = some store')
    (henv : env.Unserved cursor) : ¬ Recovered cursor env store' := by
  have hafter := (Environment.exec_runCycle_unserved hrefused.unserved hcursor).2
  have hstuck := run_cursor_of_unserved hunserved hafter hrun
  rintro (hleft | ⟨report, hreport⟩)
  · exact hleft hstuck
  · exact (Environment.exec_runCycle_unserved henv hstuck).1 report hreport

/-! ## A server that trimmed its log -/

namespace Environment

/-- A signed-in desktop, and a server that refuses the cursor `v1.AAAAAAAAAAU` and serves an
empty page from the start of the feed. -/
def trimmedServer : Environment :=
  { refusingEnvironment (.network "timed out") with
    fetchPage := fun _ cursor ↦
      if cursor = some "v1.AAAAAAAAAAU" then .error cursorExpired
      else .ok
        { page := { protocolVersion := 1, changes := [], nextCursor := "v1.AAAAAAAAAAk"
                    hasMore := false }
          blobsDownloaded := 0 } }

theorem trimmedServer_refuses : trimmedServer.Refuses "v1.AAAAAAAAAAU" := fun _ ↦ rfl

/-- A store that pulled up to the cursor. -/
def pulledStore : LocalStore :=
  { fresh with
    syncState :=
      { protocolVersion := 1, clientInstanceId := some "inst-1", deviceId := some "dev-1"
        serverUserId := some "user-1", serverUrl := some "https://hive.example"
        serverLoginIdentity := some "ada", serverCursor := some "v1.AAAAAAAAAAU"
        lastSuccessfulPushAt := none, lastSuccessfulPullAt := none, lastServerError := none } }

end Environment

open Environment in
/-- After any number of cycles the desktop asks with the refused cursor, although the server
would serve the start of the feed; with the cursor cleared, one cycle succeeds. -/
theorem cycles_keep_refusedCursor :
    (∀ n, worker.run pulledStore (List.replicate n (.cycle trimmedServer)) ≠ none ∧
      ∀ store, worker.run pulledStore (List.replicate n (.cycle trimmedServer)) = some store →
        store.syncState.serverCursor = some "v1.AAAAAAAAAAU") ∧
    (trimmedServer.runCycle.exec { pulledStore with
      syncState := { pulledStore.syncState with serverCursor := none } }).1.isOk = true := by
  refine ⟨fun n ↦ ⟨?_, fun store hrun ↦ ?_⟩, by decide⟩
  · have hruns : ∀ store : LocalStore,
        worker.run store (List.replicate n (.cycle trimmedServer)) ≠ none := by
      induction n with
      | zero => exact fun store ↦ Option.some_ne_none store
      | succ n ih => exact fun store ↦ ih _
    exact hruns pulledStore
  · apply run_cursor_of_unserved ?_ rfl hrun
    have heach : ∀ store : LocalStore, worker.EachStep
        (fun _ action ↦ action.Unserved "v1.AAAAAAAAAAU") store
        (List.replicate n (.cycle trimmedServer)) := by
      clear hrun
      induction n with
      | zero => exact fun store ↦ trivial
      | succ n ih => exact fun store s _ ↦ ⟨trimmedServer_refuses.unserved, ih s⟩
    exact heach pulledStore

open Environment in
/-- Two cycles and an operation of the user interface after the first refused cycle, the desktop has
not recovered. -/
theorem run_never_recovered_trimmedServer :
    ∃ store, worker.run (trimmedServer.runCycle.exec pulledStore).2 [.cycle trimmedServer,
        .store leaselessHost (.expireDueEntitlements 5), .cycle trimmedServer] = some store ∧
      ¬ Recovered "v1.AAAAAAAAAAU" trimmedServer store := by
  have hunserved : ∀ action ∈ ([.cycle trimmedServer,
      .store leaselessHost (.expireDueEntitlements 5), .cycle trimmedServer] : List WorkerAction),
        action.Unserved "v1.AAAAAAAAAAU" := by
    intro action hmem
    simp only [List.mem_cons, List.not_mem_nil, or_false] at hmem
    rcases hmem with rfl | rfl | rfl
    · exact trimmedServer_refuses.unserved
    · trivial
    · exact trimmedServer_refuses.unserved
  refine ⟨_, rfl, run_never_recovered rfl trimmedServer_refuses
    (TransitionSystem.eachStep_of_forall (fun action hmem _ ↦ hunserved action hmem) _) rfl
    trimmedServer_refuses.unserved⟩

end Sync

end SkillHive
