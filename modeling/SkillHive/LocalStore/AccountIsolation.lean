import SkillHive.LocalStore.AccountScopes
import SkillHive.LocalStore.LocalWork

/-!
# Isolation of accounts on one desktop

Logins, logouts and server switches change the scope of a store while its rows stay, and a
sync cycle checks the scope once and then works on. Every row is kept with the scope under
which it was created; a row of no account belongs to the first one that is recorded. The
rows of a bound store are those of its account as long as no account is recorded over the
rows of another and no cycle outlives the scope that it checked.
-/

namespace SkillHive

open Foundation

namespace LocalStore

/-! ## The desktop -/

/-- A sync cycle: its client has found the scope complete, or its device is registered and it
pushes and pulls for the account. -/
inductive Cycle where
  | opened (serverUrl : String)
  | running (account : Account)
  deriving DecidableEq, Repr

/-- The store, the cycles under way, and the scope under which each row was created. -/
structure Desktop where
  store : LocalStore
  cycles : List Cycle
  createdUnder : RowKey → Scope

/-- The steps of commands and cycles, each a transaction of the store. Commands and cycles
share no lock that orders them. -/
inductive DesktopAction where
  | prepareLoginScope (serverUrl loginIdentity : String)
  /-- The login of a command: the server accepted the credentials of the user. -/
  | recordAuthenticatedDevice
      (serverUrl loginIdentity clientInstanceId deviceId serverUserId : String)
  | prepareServerSwitch (serverUrl : String)
  | invalidateAuthenticatedScope
  | command (action : StoreAction)
  | openCycle (serverUrl : String)
  /-- The registered device of a cycle is the one on record. -/
  | keepDevice (serverUrl deviceId serverUserId : String)
  /-- The registered device of a cycle is recorded. -/
  | adoptDevice (serverUrl loginIdentity clientInstanceId deviceId serverUserId : String)
  | sync (account : Account) (action : StoreAction)
  | endCycle (cycle : Cycle)

namespace Desktop

/-- A row that a transaction creates is created under the scope. -/
def write (s : Desktop) (scope : Scope) (store : LocalStore) : Desktop :=
  { s with
    store := store
    createdUnder := fun key ↦ if s.store.hasRow key then s.createdUnder key else scope }

/-- The recorded account completes the scopes of the rows. -/
def bind (s : Desktop) (account : Account) (store : LocalStore) : Desktop :=
  { s with store := store, createdUnder := fun key ↦ (s.createdUnder key).adopt account }

/-- A cycle goes on from one phase to the next. -/
def advance (s : Desktop) (cycle next : Cycle) : Desktop :=
  { s with cycles := next :: s.cycles.erase cycle }

/-- A step of the store that is none of the scope. -/
def storeStep? (host : Host) (store : LocalStore) : StoreAction → Option LocalStore
  | .writeSyncState _ => none
  | action => storeStep host store action

end Desktop

open Desktop in
/-- One desktop from a fresh install on. -/
def desktop (host : Host) : TransitionSystem Desktop DesktopAction where
  init s := s.store = fresh ∧ s.cycles = []
  step
  | s, .prepareLoginScope serverUrl loginIdentity =>
    (s.store.prepareLoginScope serverUrl loginIdentity).toOption.map fun store ↦ { s with store }
  | s, .recordAuthenticatedDevice serverUrl loginIdentity clientInstanceId deviceId serverUserId =>
    (s.store.recordAuthenticatedDevice serverUrl loginIdentity clientInstanceId deviceId
      serverUserId).toOption.map (s.bind ⟨serverUrl, serverUserId⟩)
  | s, .prepareServerSwitch serverUrl =>
    (s.store.prepareServerSwitch serverUrl).toOption.map fun store ↦ { s with store }
  | s, .invalidateAuthenticatedScope =>
    some { s with store := s.store.invalidateAuthenticatedScope }
  | s, .command action => (storeStep? host s.store action).map (s.write s.store.scope)
  | s, .openCycle serverUrl =>
    (s.store.assertServerScope serverUrl).toOption.map fun _ ↦
      { s with cycles := .opened serverUrl :: s.cycles }
  | s, .keepDevice serverUrl deviceId serverUserId =>
    if .opened serverUrl ∈ s.cycles ∧ s.store.syncState.deviceId = some deviceId ∧
        s.store.scope = Account.scope ⟨serverUrl, serverUserId⟩ then
      some (s.advance (.opened serverUrl) (.running ⟨serverUrl, serverUserId⟩))
    else none
  | s, .adoptDevice serverUrl loginIdentity clientInstanceId deviceId serverUserId =>
    if .opened serverUrl ∈ s.cycles then
      (s.store.recordAuthenticatedDevice serverUrl loginIdentity clientInstanceId deviceId
        serverUserId).toOption.map fun store ↦
          (s.bind ⟨serverUrl, serverUserId⟩ store).advance (.opened serverUrl)
            (.running ⟨serverUrl, serverUserId⟩)
    else none
  | s, .sync account action =>
    if .running account ∈ s.cycles then
      (storeStep? host s.store action).map (s.write account.scope)
    else none
  | s, .endCycle cycle => some { s with cycles := s.cycles.erase cycle }

/-! ## Isolation -/

namespace Desktop

/-- A cycle may open under no other scope than the one under which the rows were created. -/
def Isolated (s : Desktop) : Prop :=
  ∀ serverUrl, s.store.assertServerScope serverUrl = .ok () →
    ∀ key, s.store.hasRow key = true →
      ∃ user, s.store.syncState.serverUserId = some user ∧
        s.createdUnder key = Account.scope ⟨serverUrl, user⟩

/-- Whenever the store is bound, its rows are those of the account. -/
def RowsOfAccount (s : Desktop) : Prop :=
  ∀ account, s.store.account? = some account →
    ∀ key, s.store.hasRow key = true → s.createdUnder key = account.scope

theorem RowsOfAccount.isolated {s : Desktop} (h : s.RowsOfAccount) : s.Isolated := by
  intro serverUrl hassert key hkey
  obtain ⟨user, huser, haccount⟩ :=
    account?_of_assertServerScope hassert (localRows_pos_of_hasRow hkey)
  exact ⟨user, huser, h _ haccount key hkey⟩

/-- Every row of the store allows the account. -/
def RowsAllow (s : Desktop) (account : Account) : Prop :=
  ∀ key, s.store.hasRow key = true → (s.createdUnder key).Allows account

/-- What an action needs in order to keep accounts apart: an account is recorded over no row
of another one, and a cycle pushes and pulls while the store is still bound to its account. -/
def KeepsApart (s : Desktop) : DesktopAction → Prop
  | .recordAuthenticatedDevice serverUrl _ _ _ serverUserId =>
    s.RowsAllow ⟨serverUrl, serverUserId⟩
  | .adoptDevice serverUrl _ _ _ serverUserId => s.RowsAllow ⟨serverUrl, serverUserId⟩
  | .sync account _ => s.store.account? = some account
  | _ => True

/-- What a cycle pushes, and what it pulls into, are rows of its account. -/
def MovesOwnRows (s : Desktop) : DesktopAction → Prop
  | .sync account _ => ∀ key, s.store.hasRow key = true → s.createdUnder key = account.scope
  | _ => True

theorem RowsOfAccount.movesOwnRows {s : Desktop} {action : DesktopAction} (h : s.RowsOfAccount)
    (hkeeps : s.KeepsApart action) : s.MovesOwnRows action := by
  cases action with
  | sync account action => exact h account hkeeps
  | _ => trivial

/-! ## One step -/

variable {host : Host} {s s' : Desktop}

theorem RowsOfAccount.of_bindsNothing {store : LocalStore} (h : s.RowsOfAccount)
    (hbinds : s.store.BindsNothing store) : ({ s with store } : Desktop).RowsOfAccount := by
  intro account haccount key hkey
  rw [hbinds.toSameRows.hasRow_eq] at hkey
  exact h account (hbinds.account account haccount) key hkey

/-- A recorded account leaves isolation exactly when every row allows it. -/
theorem rowsOfAccount_bind_iff {account : Account} {store : LocalStore}
    (hrows : s.store.SameRows store) (haccount : store.account? = some account) :
    (s.bind account store).RowsOfAccount ↔ s.RowsAllow account := by
  constructor
  · intro h key hkey
    exact Scope.adopt_eq_iff.mp (h account haccount key ((hrows.hasRow_eq key).trans hkey))
  · intro h account' haccount' key hkey
    have hsame : account' = account := Option.some.inj (haccount'.symm.trans haccount)
    rw [hsame]
    exact Scope.adopt_eq_iff.mpr (h key ((hrows.hasRow_eq key).symm.trans hkey))

/-- A transaction that leaves the scope alone creates its rows under the account, if the
store is bound. -/
theorem RowsOfAccount.write {scope : Scope} {store : LocalStore} (h : s.RowsOfAccount)
    (hsame : store.scope = s.store.scope)
    (hscope : ∀ account, s.store.account? = some account → scope = account.scope) :
    (s.write scope store).RowsOfAccount := by
  intro account haccount key hkey
  have hbound : s.store.account? = some account := by
    rw [account?, ← hsame]
    exact haccount
  simp only [Desktop.write]
  split
  case isTrue hold => exact h account hbound key hold
  case isFalse => exact hscope account hbound

theorem storeStep?_scope {store : LocalStore} {action : StoreAction}
    (h : storeStep? host s.store action = some store) : store.scope = s.store.scope := by
  have hwrite : ∀ syncState, action ≠ .writeSyncState syncState := by
    rintro syncState rfl
    cases h
  have hstep : storeStep host s.store action = some store := by
    cases action with
    | writeSyncState syncState => exact absurd rfl (hwrite syncState)
    | _ => exact h
  exact storeStep_scope hstep hwrite

theorem RowsOfAccount.step {action : DesktopAction} (h : s.RowsOfAccount)
    (hkeeps : s.KeepsApart action) (hstep : (desktop host).step s action = some s') :
    s'.RowsOfAccount := by
  cases action with
  | prepareLoginScope serverUrl loginIdentity =>
    simp only [desktop] at hstep
    obtain ⟨store, hprepare, rfl⟩ := Option.map_eq_some_iff.mp hstep
    exact h.of_bindsNothing (prepareLoginScope_bindsNothing (toOption_eq_some.mp hprepare))
  | recordAuthenticatedDevice serverUrl loginIdentity clientInstanceId deviceId serverUserId =>
    simp only [desktop] at hstep
    obtain ⟨store, hrecord, rfl⟩ := Option.map_eq_some_iff.mp hstep
    obtain ⟨hrows, haccount, -⟩ := recordAuthenticatedDevice_binds (toOption_eq_some.mp hrecord)
    exact (rowsOfAccount_bind_iff hrows haccount).mpr hkeeps
  | prepareServerSwitch serverUrl =>
    simp only [desktop] at hstep
    obtain ⟨store, hprepare, rfl⟩ := Option.map_eq_some_iff.mp hstep
    exact h.of_bindsNothing (prepareServerSwitch_bindsNothing (toOption_eq_some.mp hprepare))
  | invalidateAuthenticatedScope =>
    cases hstep
    exact h.of_bindsNothing (invalidateAuthenticatedScope_bindsNothing s.store)
  | command action =>
    simp only [desktop] at hstep
    obtain ⟨store, hstore, rfl⟩ := Option.map_eq_some_iff.mp hstep
    exact h.write (storeStep?_scope hstore) fun account haccount ↦
      Scope.account?_eq_some.mp haccount
  | openCycle serverUrl =>
    simp only [desktop] at hstep
    obtain ⟨_, -, rfl⟩ := Option.map_eq_some_iff.mp hstep
    exact h
  | keepDevice serverUrl deviceId serverUserId =>
    simp only [desktop] at hstep
    split at hstep
    case isTrue =>
      cases hstep
      exact h
    case isFalse => cases hstep
  | adoptDevice serverUrl loginIdentity clientInstanceId deviceId serverUserId =>
    simp only [desktop] at hstep
    split at hstep
    case isTrue =>
      obtain ⟨store, hrecord, rfl⟩ := Option.map_eq_some_iff.mp hstep
      obtain ⟨hrows, haccount, -⟩ := recordAuthenticatedDevice_binds (toOption_eq_some.mp hrecord)
      exact (rowsOfAccount_bind_iff hrows haccount).mpr hkeeps
    case isFalse => cases hstep
  | sync account action =>
    simp only [desktop] at hstep
    split at hstep
    case isTrue =>
      obtain ⟨store, hstore, rfl⟩ := Option.map_eq_some_iff.mp hstep
      refine h.write (storeStep?_scope hstore) fun account' haccount' ↦ ?_
      rw [Option.some.inj (haccount'.symm.trans hkeeps)]
    case isFalse => cases hstep
  | endCycle cycle =>
    cases hstep
    exact h

end Desktop

/-! ## Runs -/

open Desktop in
/-- In every run from a fresh install whose steps keep accounts apart, every state is
isolated and every cycle moves rows of its own account only. -/
theorem run_isolated {host : Host} {s : Desktop} {actions : List DesktopAction}
    (hinit : (desktop host).init s) (hkeeps : (desktop host).EachStep KeepsApart s actions) :
    (desktop host).Always Isolated s actions ∧ (desktop host).EachStep MovesOwnRows s actions := by
  have hrows : s.RowsOfAccount := by
    intro account haccount
    rw [hinit.1] at haccount
    cases haccount
  have halways : (desktop host).Always RowsOfAccount s actions :=
    hkeeps.always (fun _ _ _ hs hkeep hstep ↦ hs.step hkeep hstep) hrows
  refine ⟨halways.mono fun _ h ↦ h.isolated, ?_⟩
  exact hkeeps.of_always (fun _ _ hs hkeep ↦ hs.movesOwnRows hkeep) halways

instance (s : Desktop) (account : Account) : Decidable (s.RowsAllow account) :=
  decidable_of_iff
    ((∀ row ∈ s.store.skills.rows, (s.createdUnder (.skill row.id)).Allows account) ∧
      ∀ m ∈ s.store.mutations.rows, (s.createdUnder (.mutation m.id)).Allows account) (by
    constructor
    · rintro ⟨hskills, hmutations⟩ key hkey
      cases key with
      | skill id =>
        obtain ⟨row, hrow⟩ := Option.isSome_iff_exists.mp hkey
        have hid : row.id = id := Table.key_of_get? hrow
        exact hid ▸ hskills row (Table.mem_of_get? hrow)
      | mutation id =>
        obtain ⟨m, hm⟩ := Option.isSome_iff_exists.mp hkey
        have hid : m.id = id := Table.key_of_get? hm
        exact hid ▸ hmutations m (Table.mem_of_get? hm)
    · intro h
      refine ⟨fun row hrow ↦ h (.skill row.id) ?_, fun m hm ↦ h (.mutation m.id) ?_⟩
      · exact Option.isSome_iff_exists.mpr ⟨row, Table.get?_of_mem hrow⟩
      · exact Option.isSome_iff_exists.mpr ⟨m, Table.get?_of_mem hm⟩)

instance (s : Desktop) (action : DesktopAction) : Decidable (s.KeepsApart action) :=
  match action with
  | .recordAuthenticatedDevice serverUrl _ _ _ serverUserId =>
    inferInstanceAs (Decidable (s.RowsAllow ⟨serverUrl, serverUserId⟩))
  | .adoptDevice serverUrl _ _ _ serverUserId =>
    inferInstanceAs (Decidable (s.RowsAllow ⟨serverUrl, serverUserId⟩))
  | .sync account _ => inferInstanceAs (Decidable (s.store.account? = some account))
  | .prepareLoginScope .. | .prepareServerSwitch .. | .invalidateAuthenticatedScope
  | .command .. | .openCycle .. | .keepDevice .. | .endCycle .. => .isTrue trivial

/-! ## Two users of one server -/

/-- A fresh install, without rows. -/
def freshDesktop : Desktop := ⟨fresh, [], fun _ ↦ ⟨none, none⟩⟩

/-- The user signs in to the one server. -/
def signIn (user : String) : List DesktopAction :=
  [.prepareLoginScope "https://one.example" user,
    .recordAuthenticatedDevice "https://one.example" user "instance-1" "device-1" user]

/-- The first user signs in, creates a skill and signs out. -/
def leftRowsRun : List DesktopAction :=
  signIn "alice" ++
    [.command (.commitSkillEdit 1 "m-1"
        { sampleUpdate "local-1" "sha256:local" none with operation := .create }),
      .invalidateAuthenticatedScope]

/-- The first user comes back, and a cycle takes the skill to the server. -/
def sameUserRun : List DesktopAction :=
  leftRowsRun ++ signIn "alice" ++
    [.openCycle "https://one.example", .keepDevice "https://one.example" "device-1" "alice",
      .sync ⟨"https://one.example", "alice"⟩ (.claimDispatchableMutations 2 50)]

/-- While the first user comes back, the store stays isolated. -/
theorem run_isolated_sameUser :
    ((desktop leaselessHost).run freshDesktop sameUserRun).isSome = true ∧
      (desktop leaselessHost).Always Desktop.Isolated freshDesktop sameUserRun ∧
      (desktop leaselessHost).EachStep Desktop.MovesOwnRows freshDesktop sameUserRun :=
  ⟨by decide, run_isolated ⟨rfl, rfl⟩ (by decide)⟩

/-- After the first user signed out, a second one signs in over the rows of the first, and a
cycle of the second may open on them. -/
theorem secondUser_getsRows :
    ¬ ∀ actions, (desktop leaselessHost).Always Desktop.Isolated freshDesktop actions := by
  intro hclaim
  have hrun : ((desktop leaselessHost).run freshDesktop (leftRowsRun ++ signIn "bob")).any
      (fun s ↦ (s.store.assertServerScope "https://one.example").toOption.isSome &&
        (s.store.hasRow (.mutation "m-1") &&
          (s.createdUnder (.mutation "m-1") =
              Account.scope ⟨"https://one.example", "alice"⟩ ∧
            s.store.syncState.serverUserId = some "bob"))) = true := by
    decide
  obtain ⟨s, hs, hall⟩ := (Option.any_eq_true _ _).mp hrun
  obtain ⟨hassert, hall⟩ := Bool.and_eq_true_iff.mp hall
  obtain ⟨hrow, hscopes⟩ := Bool.and_eq_true_iff.mp hall
  obtain ⟨hcreated, hbound⟩ := of_decide_eq_true hscopes
  obtain ⟨⟨⟩, hassert⟩ := Option.isSome_iff_exists.mp hassert
  have hisolated : s.Isolated := (hclaim _).last hs
  obtain ⟨user, huser, hscope⟩ :=
    hisolated "https://one.example" (toOption_eq_some.mp hassert) (.mutation "m-1") hrow
  have hbob : user = "bob" := Option.some.inj (huser.symm.trans hbound)
  have hscopes := hcreated.symm.trans hscope
  rw [hbob] at hscopes
  exact absurd hscopes (by decide)

end LocalStore

end SkillHive
