import SkillHive.LocalStore.Schema

/-!
# The synchronization row

The single row of `local_sync_state` binds the store to one server and account, and keeps
the feed cursor and the diagnostics of the last cycle.
-/

namespace SkillHive

open Foundation

namespace LocalStore

/-- Rows that a server switch would strand: skills and mutations. -/
def localRows (store : LocalStore) : ℕ :=
  store.skills.rows.length + store.mutations.rows.length

/-- `str::eq_ignore_ascii_case` -/
def eqIgnoreAsciiCase (a b : String) : Bool :=
  a.toList.map Char.toLower = b.toList.map Char.toLower

/-- `ensure_client_instance_id`; `fresh` is the identifier drawn when none is stored. -/
def ensureClientInstanceId (store : LocalStore) (fresh : String) : LocalStore × String :=
  match store.syncState.clientInstanceId with
  | some existing => (store, existing)
  | none =>
    ({ store with syncState := { store.syncState with clientInstanceId := some fresh } }, fresh)

/-- `prepare_login_scope` -/
def prepareLoginScope (store : LocalStore) (serverUrl loginIdentity : String) :
    Except LocalStoreError LocalStore := do
  validateNonEmpty "server_url" serverUrl
  validateNonEmpty "login_identity" loginIdentity
  let state := store.syncState
  let urlMatches : Bool := state.serverUrl.all fun url ↦ url = serverUrl
  let identityMatches : Bool := state.serverLoginIdentity.all fun identity ↦
    eqIgnoreAsciiCase identity (trim loginIdentity)
  let scopeComplete : Bool :=
    state.serverUrl.isSome && state.serverLoginIdentity.isSome && state.serverUserId.isSome
  let establishedServer : Bool := state.serverUrl.isSome && state.serverUserId.isSome
  require (¬ (0 < store.localRows ∧ establishedServer = true ∧ urlMatches = false))
    (.invalidInput "local data belongs to another SkillHive server/account; export or clear it before switching")
  if scopeComplete && urlMatches && identityMatches then .ok store
  else
    -- The submitted name is only an attempt: it is stored after the server accepted it.
    .ok { store with syncState :=
      { state with
        serverUrl := some serverUrl
        serverLoginIdentity := none
        serverUserId := if urlMatches && establishedServer then state.serverUserId else none
        deviceId := none
        serverCursor := none
        lastServerError := none } }

/-- `prepare_server_switch` -/
def prepareServerSwitch (store : LocalStore) (serverUrl : String) :
    Except LocalStoreError LocalStore := do
  validateNonEmpty "server_url" serverUrl
  let state := store.syncState
  let scopeComplete : Bool :=
    state.serverUrl.isSome && state.serverLoginIdentity.isSome && state.serverUserId.isSome
  let establishedServer : Bool := state.serverUrl.isSome && state.serverUserId.isSome
  require (¬ (0 < store.localRows ∧ establishedServer = true ∧
      ∃ url ∈ state.serverUrl, url ≠ serverUrl))
    (.invalidInput "local data belongs to another server; synchronize or clear it before switching")
  if state.serverUrl ≠ some serverUrl ∨ scopeComplete = false then
    .ok { store with syncState :=
      { state with
        serverUrl := some serverUrl
        serverLoginIdentity := none
        serverUserId := none
        deviceId := none
        serverCursor := none
        lastServerError := none } }
  else .ok store

/-- `record_authenticated_device` -/
def recordAuthenticatedDevice (store : LocalStore)
    (serverUrl loginIdentity clientInstanceId deviceId serverUserId : String) :
    Except LocalStoreError LocalStore := do
  validateNonEmpty "server_url" serverUrl
  validateNonEmpty "login_identity" loginIdentity
  validateNonEmpty "client_instance_id" clientInstanceId
  validateNonEmpty "device_id" deviceId
  validateNonEmpty "server_user_id" serverUserId
  let state := store.syncState
  let scopeComplete : Bool :=
    state.serverUrl.isSome && state.serverLoginIdentity.isSome && state.serverUserId.isSome
  let expectedUser := if state.serverUrl.isSome then state.serverUserId else none
  require (¬ ((∃ url ∈ state.serverUrl, url ≠ serverUrl) ∨
      (0 < store.localRows ∧ ∃ user ∈ expectedUser, user ≠ serverUserId)))
    (.invalidInput "authenticated server/account does not match the durable local scope")
  .ok { store with syncState :=
    { state with
      serverUrl := some serverUrl
      serverLoginIdentity := some (trim loginIdentity)
      clientInstanceId := some clientInstanceId
      deviceId := some deviceId
      serverUserId := some serverUserId
      serverCursor := if scopeComplete then state.serverCursor else none
      lastSuccessfulPushAt := if scopeComplete then state.lastSuccessfulPushAt else none
      lastSuccessfulPullAt := if scopeComplete then state.lastSuccessfulPullAt else none
      lastServerError := none } }

/-- `assert_server_scope` -/
def assertServerScope (store : LocalStore) (serverUrl : String) : Except LocalStoreError Unit := do
  validateNonEmpty "server_url" serverUrl
  let state := store.syncState
  let scopeStarted : Bool := state.serverUrl.isSome || state.serverLoginIdentity.isSome ||
    state.serverUserId.isSome || state.serverCursor.isSome
  require (¬ ((∃ url ∈ state.serverUrl, url ≠ serverUrl) ∨
      (scopeStarted = true ∧ (state.serverUrl = none ∨ state.serverLoginIdentity = none ∨
        state.serverUserId = none)) ∨
      (0 < store.localRows ∧ (state.serverUrl = none ∨ state.serverUserId = none))))
    (.invalidInput "local sync state is bound to a different or incomplete server/account scope")

/-- `invalidate_authenticated_scope` -/
def invalidateAuthenticatedScope (store : LocalStore) : LocalStore :=
  { store with syncState :=
    { store.syncState with
      serverLoginIdentity := none
      serverUserId := none
      deviceId := none
      serverCursor := none
      lastSuccessfulPushAt := none
      lastSuccessfulPullAt := none
      lastServerError := some "desktop logout pending" } }

/-- `record_sync_error` -/
def recordSyncError (store : LocalStore) (error : String) : Except LocalStoreError LocalStore := do
  validateNonEmpty "last_server_error" error
  .ok { store with syncState := { store.syncState with lastServerError := some error } }

/-- `record_push_success` -/
def recordPushSuccess (store : LocalStore) (now : ℕ) : LocalStore :=
  { store with syncState :=
    { store.syncState with lastSuccessfulPushAt := some now, lastServerError := none } }

/-- `record_pull_cursor_in_transaction` -/
def recordPullCursorInTransaction (store : LocalStore) (now : ℕ) (cursor : String) :
    Except LocalStoreError LocalStore := do
  validateNonEmpty "server_cursor" cursor
  .ok { store with syncState :=
    { store.syncState with
      serverCursor := some cursor
      lastSuccessfulPullAt := some now
      lastServerError := none } }

theorem recordPullCursorInTransaction_spec {store store' : LocalStore} {now : ℕ} {cursor : String}
    (h : store.recordPullCursorInTransaction now cursor = .ok store') :
    store' = { store with syncState :=
      { store.syncState with
        serverCursor := some cursor, lastSuccessfulPullAt := some now, lastServerError := none } } := by
  obtain ⟨-, -, h⟩ := bind_eq_ok.mp h
  cases h
  rfl

end LocalStore

end SkillHive
