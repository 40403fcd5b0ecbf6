import SkillHive.LocalStore.Events
import SkillHive.LocalStore.Outbox

/-!
# The account that a store is bound to

A store is bound to an account when its synchronization row names a server and a user. The
steps that prepare a login, switch the server or log out bind nothing, the record of an
authenticated device does, and no other step touches the two columns.
-/

namespace SkillHive

open Foundation

namespace LocalStore

/-! ## Accounts and scopes -/

/-- A user of a server. -/
structure Account where
  serverUrl : String
  serverUserId : String
  deriving DecidableEq, Repr

/-- The columns of the synchronization row that name an account, or a part of one. -/
structure Scope where
  serverUrl : Option String
  serverUserId : Option String
  deriving DecidableEq, Repr

def Account.scope (account : Account) : Scope := ⟨some account.serverUrl, some account.serverUserId⟩

namespace Scope

/-- The account that a complete scope names. -/
def account? (scope : Scope) : Option Account :=
  scope.serverUrl.bind fun url ↦ scope.serverUserId.map fun user ↦ ⟨url, user⟩

theorem account?_eq_some {scope : Scope} {account : Account} :
    scope.account? = some account ↔ scope = account.scope := by
  obtain ⟨url, user⟩ := scope
  obtain ⟨url', user'⟩ := account
  cases url <;> cases user <;> simp [account?, Account.scope]

/-- The scope names no other server and no other user. -/
def Allows (scope : Scope) (account : Account) : Prop :=
  (∀ url ∈ scope.serverUrl, url = account.serverUrl) ∧
    ∀ user ∈ scope.serverUserId, user = account.serverUserId

instance (scope : Scope) (account : Account) : Decidable (scope.Allows account) :=
  inferInstanceAs (Decidable (_ ∧ _))

/-- The account completes what the scope leaves open. -/
def adopt (scope : Scope) (account : Account) : Scope :=
  ⟨scope.serverUrl.or (some account.serverUrl), scope.serverUserId.or (some account.serverUserId)⟩

theorem adopt_eq_iff {scope : Scope} {account : Account} :
    scope.adopt account = account.scope ↔ scope.Allows account := by
  obtain ⟨url, user⟩ := scope
  cases url <;> cases user <;> simp [adopt, Account.scope, Allows]

end Scope

/-- The scope on record. -/
def scope (store : LocalStore) : Scope := ⟨store.syncState.serverUrl, store.syncState.serverUserId⟩

/-- The account that the store is bound to. -/
def account? (store : LocalStore) : Option Account := store.scope.account?

/-! ## Rows -/

/-- The key of a local skill or of a queued mutation. -/
inductive RowKey where
  | skill (id : String)
  | mutation (id : String)
  deriving DecidableEq, Repr

def hasRow (store : LocalStore) : RowKey → Bool
  | .skill id => (store.skill? id).isSome
  | .mutation id => (store.mutation? id).isSome

theorem localRows_pos_of_hasRow {store : LocalStore} {key : RowKey} (h : store.hasRow key = true) :
    0 < store.localRows := by
  cases key with
  | skill id =>
    obtain ⟨row, hrow⟩ := Option.isSome_iff_exists.mp h
    have hpos : 0 < store.skills.rows.length := List.length_pos_of_mem (Table.mem_of_get? hrow)
    exact Nat.add_pos_left hpos _
  | mutation id =>
    obtain ⟨m, hm⟩ := Option.isSome_iff_exists.mp h
    have hpos : 0 < store.mutations.rows.length := List.length_pos_of_mem (Table.mem_of_get? hm)
    exact Nat.add_pos_right _ hpos

/-- The stores have the same local rows. -/
structure SameRows (store store' : LocalStore) : Prop where
  skills : store'.skills = store.skills
  mutations : store'.mutations = store.mutations

theorem SameRows.hasRow_eq {store store' : LocalStore} (h : store.SameRows store')
    (key : RowKey) : store'.hasRow key = store.hasRow key := by
  cases key with
  | skill id => rw [hasRow, hasRow, skill?, skill?, h.skills]
  | mutation id => rw [hasRow, hasRow, mutation?, mutation?, h.mutations]

/-! ## The operations on the scope -/

/-- The rows stay, and a store that is bound afterwards was bound to the same account. -/
structure BindsNothing (store store' : LocalStore) : Prop extends store.SameRows store' where
  account : ∀ account, store'.account? = some account → store.account? = some account

variable {store store' : LocalStore}

theorem BindsNothing.of_unbound (hrows : store.SameRows store')
    (huser : store'.syncState.serverUserId = none) : store.BindsNothing store' := by
  refine ⟨hrows, fun account haccount ↦ ?_⟩
  have hscope : store'.scope = account.scope := Scope.account?_eq_some.mp haccount
  have hsome : store'.syncState.serverUserId = some account.serverUserId :=
    congrArg Scope.serverUserId hscope
  cases huser.symm.trans hsome

theorem prepareLoginScope_bindsNothing {serverUrl loginIdentity : String}
    (h : store.prepareLoginScope serverUrl loginIdentity = .ok store') :
    store.BindsNothing store' := by
  obtain ⟨_, -, h⟩ := bind_eq_ok.mp h
  obtain ⟨_, -, h⟩ := bind_eq_ok.mp h
  obtain ⟨_, -, h⟩ := bind_eq_ok.mp h
  split at h
  case isTrue =>
    cases h
    exact ⟨⟨rfl, rfl⟩, fun _ haccount ↦ haccount⟩
  case isFalse =>
    cases h
    by_cases hkeeps : (store.syncState.serverUrl.all (fun url ↦ decide (url = serverUrl)) &&
        (store.syncState.serverUrl.isSome && store.syncState.serverUserId.isSome)) = true
    · -- The user of the same server stays on record while the login is pending.
      refine ⟨⟨rfl, rfl⟩, fun account haccount ↦ ?_⟩
      simp only [account?, scope, if_pos hkeeps] at haccount
      have hsame : store.syncState.serverUrl = some serverUrl := by
        simp only [Bool.and_eq_true] at hkeeps
        obtain ⟨hmatches, hsome, -⟩ := hkeeps
        obtain ⟨url, hurl⟩ := Option.isSome_iff_exists.mp hsome
        rw [hurl, Option.all_some, decide_eq_true_iff] at hmatches
        rw [hurl, hmatches]
      rw [account?, scope, hsame]
      exact haccount
    · exact .of_unbound ⟨rfl, rfl⟩ (if_neg hkeeps)

theorem prepareServerSwitch_bindsNothing {serverUrl : String}
    (h : store.prepareServerSwitch serverUrl = .ok store') : store.BindsNothing store' := by
  obtain ⟨_, -, h⟩ := bind_eq_ok.mp h
  obtain ⟨_, -, h⟩ := bind_eq_ok.mp h
  split at h
  · cases h
    exact .of_unbound ⟨rfl, rfl⟩ rfl
  · cases h
    exact ⟨⟨rfl, rfl⟩, fun _ haccount ↦ haccount⟩

theorem invalidateAuthenticatedScope_bindsNothing (store : LocalStore) :
    store.BindsNothing store.invalidateAuthenticatedScope :=
  .of_unbound ⟨rfl, rfl⟩ rfl

/-- The record of a device binds its account. A store with rows that is bound already was
bound to that account. -/
theorem recordAuthenticatedDevice_binds
    {serverUrl loginIdentity clientInstanceId deviceId serverUserId : String}
    (h : store.recordAuthenticatedDevice serverUrl loginIdentity clientInstanceId deviceId
      serverUserId = .ok store') :
    store.SameRows store' ∧ store'.account? = some ⟨serverUrl, serverUserId⟩ ∧
      (0 < store.localRows → ∀ account, store.account? = some account →
        account = ⟨serverUrl, serverUserId⟩) := by
  obtain ⟨_, -, h⟩ := bind_eq_ok.mp h
  obtain ⟨_, -, h⟩ := bind_eq_ok.mp h
  obtain ⟨_, -, h⟩ := bind_eq_ok.mp h
  obtain ⟨_, -, h⟩ := bind_eq_ok.mp h
  obtain ⟨_, -, h⟩ := bind_eq_ok.mp h
  obtain ⟨_, hmatches, h⟩ := bind_eq_ok.mp h
  cases h
  refine ⟨⟨rfl, rfl⟩, rfl, fun hrows account haccount ↦ ?_⟩
  have hscope : store.scope = account.scope := Scope.account?_eq_some.mp haccount
  have hurl : store.syncState.serverUrl = some account.serverUrl :=
    congrArg Scope.serverUrl hscope
  have huser : store.syncState.serverUserId = some account.serverUserId :=
    congrArg Scope.serverUserId hscope
  have hchecks := require_eq_ok.mp hmatches
  simp only [hurl, huser, Option.isSome_some, if_true, Option.mem_some_iff, exists_eq_left',
    not_or, not_and, not_not] at hchecks
  obtain ⟨hserver, hsame⟩ := hchecks
  rw [← hserver, ← hsame hrows]

/-- The scope that a cycle finds when it opens: a store with rows is bound, to its server. -/
theorem account?_of_assertServerScope {serverUrl : String}
    (h : store.assertServerScope serverUrl = .ok ()) (hrows : 0 < store.localRows) :
    ∃ user, store.syncState.serverUserId = some user ∧
      store.account? = some ⟨serverUrl, user⟩ := by
  obtain ⟨_, -, h⟩ := bind_eq_ok.mp h
  have hchecks := require_eq_ok.mp h
  simp only [not_or, not_and] at hchecks
  obtain ⟨hserver, -, hcomplete⟩ := hchecks
  obtain ⟨hurl, huser⟩ := hcomplete hrows
  obtain ⟨url, hurl⟩ := Option.ne_none_iff_exists'.mp hurl
  obtain ⟨user, huser⟩ := Option.ne_none_iff_exists'.mp huser
  have hsame : url = serverUrl := by
    by_contra hne
    exact hserver ⟨url, hurl, hne⟩
  refine ⟨user, huser, Scope.account?_eq_some.mpr ?_⟩
  rw [scope, hurl, huser, hsame]
  rfl

/-! ## The other steps -/

/-- No event but a write of the synchronization row touches the scope. -/
theorem eventStep_scope {host : Host} {event : StoreEvent}
    (h : eventStep host store event = some store')
    (hwrite : ∀ syncState, event ≠ .operation (.writeSyncState syncState)) :
    store'.scope = store.scope := by
  have hframe : store'.syncState = store.syncState → store'.scope = store.scope := by
    intro hsync
    rw [scope, scope, hsync]
  cases event with
  | operation action =>
    cases action with
    | commitSkillEdit now mutationId edit =>
      obtain ⟨m, hcommit⟩ := committed_eq_some.mp h
      obtain ⟨-, -, -, -, hstore⟩ := commitSkillEdit_spec hcommit
      exact hframe (by rw [hstore])
    | queueSkillDelete now mutationId skillId baseRevision =>
      obtain ⟨m, hqueue⟩ := committed_eq_some.mp h
      obtain ⟨row, -, -, -, -, hstore⟩ := queueSkillDelete_spec hqueue
      exact hframe (by rw [hstore])
    | claimDispatchableMutations now limit =>
      obtain ⟨claimed, hclaim⟩ := committed_eq_some.mp h
      have hstore := (claimDispatchableMutations_spec hclaim).1
      exact hframe (by rw [hstore])
    | releaseInFlightMutations mutationIds =>
      cases h
      rfl
    | recoverInFlightMutations =>
      cases h
      rfl
    | applyMutationOutcome now outcome =>
      simp only [eventStep, storeStep] at h
      split at h
      case isTrue =>
        obtain ⟨applied, happly⟩ := committed_eq_some.mp h
        exact hframe (applyMutationOutcome_frame happly).2.2
      case isFalse => cases h
    | applyChangesPage now utcNow page => cases h
    | resolveKeepLocal now mutationId skillId confirmed =>
      obtain ⟨applied, hresolve⟩ := committed_eq_some.mp h
      obtain ⟨row, remoteRevision, -, -, -, -, -, hstore⟩ := resolveKeepLocal_spec hresolve
      exact hframe (by rw [hstore])
    | resolveKeepRemote skillId confirmed =>
      obtain ⟨applied, hresolve⟩ := committed_eq_some.mp h
      obtain ⟨row, remotePackage, -, -, -, -, -, hstore⟩ := resolveKeepRemote_spec hresolve
      exact hframe (by rw [hstore])
    | expireDueEntitlements utcNow =>
      cases h
      exact hframe (foldl_expireSkill_spec store _).2.2.2
    | markSkillHydrated skillId expectedManifestHash workspacePath =>
      obtain ⟨hydrated, hmark⟩ := committed_eq_some.mp h
      obtain ⟨row, -, -, -, hstore⟩ := markSkillHydrated_spec hmark
      exact hframe (by rw [hstore])
    | claimSkillForEviction skillId expectedSnapshotHash =>
      cases h
      rcases claimSkillForEviction_spec store skillId expectedSnapshotHash with
        heq | ⟨row, -, -, heq⟩
      · exact hframe (by rw [heq])
      · exact hframe (by rw [heq])
    | writeDeployments deployments =>
      cases h
      rfl
    | writeSyncState syncState => exact absurd rfl (hwrite syncState)
  | mergeChange change =>
    obtain ⟨conflicts, hrows⟩ := committed_eq_some.mp h
    rcases applyChangeRows_spec hrows with ⟨-, htombstone⟩ | ⟨-, hmerge⟩
    · rcases applyTombstone_spec htombstone with ⟨-, hstore⟩ |
        ⟨row, -, ⟨-, hstore⟩ | ⟨-, -, -, hstore⟩ | ⟨-, -, hstore⟩⟩
      · exact hframe (by rw [hstore])
      · exact hframe (by rw [hstore])
      · exact hframe (by rw [hstore])
      · rw [hstore]
        rfl
    · rcases applyUpsert_spec hmerge with ⟨-, -, hstore⟩ | ⟨row, -, ⟨-, hstore⟩ | ⟨-, -, hstore⟩⟩
      · exact hframe (by rw [hstore])
      · exact hframe (by rw [hstore])
      · exact hframe (by rw [hstore])
  | applyLease utcNow change =>
    obtain ⟨count, hlease⟩ := committed_eq_some.mp h
    rcases applyChangeEntitlement_spec hlease with hstore | ⟨row, -, -, payload, hentitlement⟩
    · exact hframe (by rw [hstore])
    · obtain ⟨expired, -, -, -, hsync⟩ := applyEntitlement_spec hentitlement
      exact hframe hsync
  | recordPullCursor now cursor =>
    have hstore := recordPullCursorInTransaction_spec (toOption_eq_some.mp h)
    rw [hstore]
    rfl

/-- The events of a step write the synchronization row only if the step does. -/
theorem StoreAction.events_ne_writeSyncState {action : StoreAction}
    (hwrite : ∀ syncState, action ≠ .writeSyncState syncState) :
    ∀ event ∈ action.events, ∀ syncState, event ≠ .operation (.writeSyncState syncState) := by
  cases action with
  | applyChangesPage now utcNow page =>
    rintro event hevent syncState rfl
    rcases List.mem_append.mp hevent with hchange | hcursor
    · obtain ⟨change, -, hmem⟩ := List.mem_flatMap.mp hchange
      simp [ChangeItem.events] at hmem
    · simp at hcursor
  | _ =>
    rintro event hevent syncState rfl
    exact hwrite syncState (StoreEvent.operation.inj (List.mem_singleton.mp hevent)).symm

theorem storeStep_scope {host : Host} {action : StoreAction}
    (h : storeStep host store action = some store')
    (hwrite : ∀ syncState, action ≠ .writeSyncState syncState) :
    store'.scope = store.scope := by
  rw [← run_action_events] at h
  have hevents : (events host).EachStep
      (fun _ event ↦ ∀ syncState, event ≠ .operation (.writeSyncState syncState))
      store action.events :=
    TransitionSystem.eachStep_of_forall
      (fun event hevent _ ↦ StoreAction.events_ne_writeSyncState hwrite event hevent) store
  refine hevents.run (P := fun s ↦ s.scope = store.scope) ?_ rfl h
  intro s event s' hs hevent hstep
  exact (eventStep_scope hstep hevent).trans hs

end LocalStore

end SkillHive
