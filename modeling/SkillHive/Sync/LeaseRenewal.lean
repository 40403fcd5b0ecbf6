import SkillHive.LocalStore.StoredLeases
import SkillHive.Server.VersionLock
import SkillHive.Sync.FeedWire

/-!
# The renewal of leases

A grant without an offline limit is leased for a week at a time. The lease comes with a
change row of its skill and with nothing else, so that it is renewed when the feed has such a
row to serve; the sweep compares the lease on record with the clock, whatever the pull before
it has served.
-/

namespace SkillHive

open Foundation LocalStore

namespace Sync

open Server (Backend BackendAction BlobStorage FeedContext GroupSkillGrant LeaseSigner PullRequest
  RowId Runtime ShippedLease SyncChangeItem SyncChangesResponse)

/-! ## A server and a desktop -/

/-- The server, and the desktop of one of its users. -/
structure Installation where
  backend : Backend
  store : LocalStore

/-- One page of a pull: what the service draws to answer it, and the clocks of the desktop
when it applies the answer. -/
structure PagePull where
  storage : BlobStorage
  servedAt : ℕ
  limit : ℕ
  now : ℕ
  utcNow : Int

inductive InstallationAction where
  | server (action : BackendAction)
  | pull (pull : PagePull)
  /-- Any other operation of the store, the sweep among them. -/
  | desktop (action : StoreAction)

namespace Installation

variable (rt : Runtime) (host : Host) (signer : LeaseSigner) (user : RowId)

/-- The request for the page after the cursor on record. -/
def request (s : Installation) (pull : PagePull) : PullRequest where
  storage := pull.storage
  signer := signer
  now := pull.servedAt
  userId := user
  cursor := s.store.syncState.serverCursor
  limit := pull.limit

/-- `apply_changes_page`, of a page as the desktop decodes it. -/
def applyPage (s : Installation) (pull : PagePull) (response : SyncChangesResponse) :
    Except LocalStoreError (LocalStore × PageApplied) :=
  applyChangesPage host s.store pull.now pull.utcNow (wirePage response)

/-- A page that the store refuses leaves it as it was. -/
def pull (s : Installation) (pull : PagePull) : Installation :=
  match (s.request signer user pull).page rt s.backend with
  | .error _ => s
  | .ok (db, response) =>
    { backend := { s.backend with db }
      store := transactionally (s.applyPage host pull response) s.store }

def step (s : Installation) : InstallationAction → Option Installation
  | .server action => ((Server.backend rt).step s.backend action).map fun backend ↦ { s with backend }
  | .pull pull => some (s.pull rt host signer user pull)
  | .desktop action =>
    (eventStep host s.store (.operation action)).map fun store ↦ { s with store }

end Installation

/-- Any server, and a fresh desktop of the user. -/
def installation (rt : Runtime) (host : Host) (signer : LeaseSigner) (user : RowId) :
    TransitionSystem Installation InstallationAction where
  init s := s.store = fresh
  step := Installation.step rt host signer user

/-! ## The lease of one skill -/

section

variable (rt : Runtime) (host : Host) (signer : LeaseSigner) (user skillId : RowId)

/-- A group of the user has an active grant of the skill without an offline limit. -/
def Installation.isEntitled (s : Installation) : Bool :=
  s.backend.org.directory.grants.rows.any fun grant ↦
    grant.skillId = skillId ∧ grant.status = .active ∧ grant.offlinePolicy = .unlimited ∧
      grant.groupId ∈ s.backend.org.directory.memberGroups user

/-- The end of the lease for the skill that a page brings to the store, if it has a row of
the skill and the store takes it. -/
def Installation.shippedUntil (s : Installation) (pull : PagePull) : Option ℕ :=
  match (s.request signer user pull).page rt s.backend with
  | .error _ => none
  | .ok (_, response) =>
    if (s.applyPage host pull response).toOption.isSome ∧
        ((wirePage response).changes.any fun change ↦ change.leases skillId.text) = true then
      (s.backend.org.directory.activeGrant? skillId user).map fun grant ↦
        grant.offlinePolicy.leaseExpiry pull.servedAt
    else none

/-- The lease that came last. -/
def recordLease (limit : Option ℕ) (s : Installation) :
    InstallationAction → Installation → Option ℕ
  | .pull pull, _ => (s.shippedUntil rt host signer user skillId pull).or limit
  | _, _ => limit

/-- The installation together with the end of the lease that came last for the skill. -/
def leasing : TransitionSystem (Installation × Option ℕ) InstallationAction :=
  (installation rt host signer user).withHistory none (recordLease rt host signer user skillId)

/-- The desktop labels the skill `access_revoked`. -/
def Revokes (x : Installation × Option ℕ) (action : InstallationAction) : Prop :=
  ∃ y, (leasing rt host signer user skillId).step x action = some y ∧
    x.1.store.isRevoked skillId.text = false ∧ y.1.store.isRevoked skillId.text = true

/-- While the user is entitled to the skill, a lease of it has not run out when it arrives,
and no sweep finds the skill with a lease that has run out. The work of the desktop on the
skill is not refused and binds it to no other skill. -/
def KeepsLease (instants : Set ℤ) (x : Installation × Option ℕ) : InstallationAction → Prop
  | .server _ => True
  | .pull pull => ∀ limit ∈ x.1.shippedUntil rt host signer user skillId pull,
      (limit : ℤ) ∈ instants ∧ (x.1.isEntitled user skillId = true → pull.utcNow < limit)
  | .desktop (.expireDueEntitlements utcNow) => x.1.isEntitled user skillId = true →
      ∀ row ∈ x.1.store.skill? skillId.text, row.syncState.isExpirable = true →
        ∀ limit ∈ x.2, utcNow ∈ instants ∧ utcNow < limit
  | .desktop action => x.1.store.KeepsAccess skillId.text action

instance (instants : Set ℤ) [DecidablePred (· ∈ instants)] (x : Installation × Option ℕ) :
    ∀ action, Decidable (KeepsLease rt host signer user skillId instants x action)
  | .server _ => .isTrue trivial
  | .pull pull => inferInstanceAs (Decidable
      (∀ limit ∈ x.1.shippedUntil rt host signer user skillId pull, (limit : ℤ) ∈ instants ∧
        (x.1.isEntitled user skillId = true → pull.utcNow < limit)))
  | .desktop (.expireDueEntitlements utcNow) => inferInstanceAs (Decidable
      (x.1.isEntitled user skillId = true →
        ∀ row ∈ x.1.store.skill? skillId.text, row.syncState.isExpirable = true →
          ∀ limit ∈ x.2, utcNow ∈ instants ∧ utcNow < limit))
  | .desktop (.commitSkillEdit now mutationId edit) => inferInstanceAs (Decidable
      (x.1.store.KeepsAccess skillId.text (.commitSkillEdit now mutationId edit)))
  | .desktop (.applyMutationOutcome now outcome) => inferInstanceAs (Decidable
      (x.1.store.KeepsAccess skillId.text (.applyMutationOutcome now outcome)))
  | .desktop (.queueSkillDelete ..) | .desktop (.claimDispatchableMutations ..)
  | .desktop (.releaseInFlightMutations _) | .desktop .recoverInFlightMutations
  | .desktop (.applyChangesPage ..) | .desktop (.resolveKeepLocal ..)
  | .desktop (.resolveKeepRemote ..) | .desktop (.markSkillHydrated ..)
  | .desktop (.claimSkillForEviction ..) | .desktop (.writeDeployments _)
  | .desktop (.writeSyncState _) => .isTrue trivial

end

/-- On these instants the desktop reads what the server writes, and the texts that it stores
itself are in the order of time. -/
structure KeepsTime (host : Host) (signer : LeaseSigner) (instants : Set ℤ) : Prop where
  parse : ∀ t : ℕ, (t : ℤ) ∈ instants → host.parseFromRfc3339 (signer.isoformat t) = .ok t
  order : ∀ a ∈ instants, ∀ b ∈ instants, a < b → host.toRfc3339 a < host.toRfc3339 b

/-! ## The lease of a page -/

theorem fromValue_leaseJson {lease : ShippedLease} {payload : EntitlementPayload}
    (h : EntitlementPayload.fromValue (leaseJson lease) = .ok payload) :
    payload.expiresAt = some lease.expiresAt := by
  unfold leaseJson EntitlementPayload.fromValue at h
  obtain ⟨_, -, h⟩ := bind_eq_ok.mp h
  obtain ⟨_, -, h⟩ := bind_eq_ok.mp h
  obtain ⟨_, -, h⟩ := bind_eq_ok.mp h
  obtain ⟨_, -, h⟩ := bind_eq_ok.mp h
  obtain ⟨_, -, h⟩ := bind_eq_ok.mp h
  obtain ⟨expiresAt, hexpires, h⟩ := bind_eq_ok.mp h
  cases h
  simp [Json.get, decodeOptionString] at hexpires
  exact hexpires.symm

theorem wireItem_lease {item : SyncChangeItem} {payload : EntitlementPayload}
    (h : (wireItem item).lease? = some payload) :
    ∃ lease, item.metadata.entitlement = some lease ∧ payload.expiresAt = some lease.expiresAt := by
  unfold ChangeItem.lease? at h
  split at h
  case isTrue => cases h
  case isFalse =>
    rw [entitlement_wireItem] at h
    cases hlease : item.metadata.entitlement with
    | none =>
      rw [hlease] at h
      cases h
    | some lease =>
      rw [hlease, Option.map_some, Option.bind_some] at h
      exact ⟨lease, rfl, fromValue_leaseJson (toOption_eq_some.mp h)⟩

/-- A served row of a skill ships the lease of a grant that the user has. -/
theorem serves_lease {ctx : FeedContext} {db : Server.Database} {user : RowId}
    {item : SyncChangeItem} {row : Server.SyncChangeLog} {lease : ShippedLease}
    (h : Server.Serves ctx db user item row) (hlease : item.metadata.entitlement = some lease) :
    ∃ grant, ctx.directory.activeGrant? item.resourceId user = some grant ∧
      lease.expiresAt = ctx.signer.isoformat (grant.offlinePolicy.leaseExpiry ctx.now) := by
  rw [h.entitlement, Server.rowLease] at hlease
  split at hlease
  case h_1 => cases hlease
  case h_2 =>
    obtain ⟨skill, hskill, hlease⟩ := Option.bind_eq_some_iff.mp hlease
    have hid : skill.id = row.resourceId := Table.key_of_get? hskill
    unfold Server.entitlementLease at hlease
    split at hlease
    case isTrue => cases hlease
    case isFalse =>
      obtain ⟨grant, hgrant, rfl⟩ := Option.map_eq_some_iff.mp hlease
      exact ⟨grant, by rw [h.resourceId, ← hid]; exact hgrant, rfl⟩

/-- What a page ships for a skill ends at one instant. -/
theorem page_leaseEnd {rt : Runtime} (host : Host) {request : PullRequest} {backend : Backend}
    {db : Server.Database} {response : SyncChangesResponse} {skillId : RowId} {change : ChangeItem}
    (hpage : request.page rt backend = .ok (db, response))
    (hchange : change ∈ (wirePage response).changes) (hleases : change.leases skillId.text = true) :
    ∃ grant, backend.org.directory.activeGrant? skillId request.userId = some grant ∧
      change.leaseEnd? host.toChrono = (host.parseFromRfc3339
        (request.signer.isoformat (grant.offlinePolicy.leaseExpiry request.now))).toOption := by
  obtain ⟨sequence, -, hserved⟩ := Server.listChanges_spec hpage
  obtain ⟨item, hitem, rfl⟩ := List.mem_map.mp hchange
  obtain ⟨hresource, hsome⟩ := of_decide_eq_true hleases
  obtain ⟨payload, hpayload⟩ := Option.isSome_iff_exists.mp hsome
  obtain ⟨lease, hlease, hexpires⟩ := wireItem_lease hpayload
  obtain ⟨row, -, hserves⟩ := exists_of_mem_left hserved.served hitem
  obtain ⟨grant, hgrant, htext⟩ := serves_lease hserves hlease
  have hid : item.resourceId = skillId := RowId.eq_of_text_eq hresource
  refine ⟨grant, hid ▸ hgrant, ?_⟩
  rw [ChangeItem.leaseEnd?, hpayload, Option.bind_some, hexpires, Option.bind_some, htext]

/-! ## Over runs -/

section

variable {rt : Runtime} {host : Host} {signer : LeaseSigner} {user skillId : RowId}
  {instants : Set ℤ} {x y : Installation × Option ℕ}

/-- The lease on record for the skill is the one that came last. -/
structure Leased (host : Host) (skillId : RowId) (instants : Set ℤ)
    (x : Installation × Option ℕ) : Prop where
  bound : x.1.store.BoundToItself skillId.text
  ends : LeaseEnds host.toChrono x.1.store skillId.text (x.2.map Nat.cast)
  inRange : ∀ limit ∈ x.2, (limit : ℤ) ∈ instants

variable (rt host) in
/-- The store after a pull is the old one, or the page was applied to it. -/
theorem Installation.pull_cases (s : Installation) (pull : PagePull) :
    ((s.pull rt host signer user pull).store = s.store ∧
        s.shippedUntil rt host signer user skillId pull = none) ∨
      ∃ db response applied, (s.request signer user pull).page rt s.backend = .ok (db, response) ∧
        s.applyPage host pull response = .ok ((s.pull rt host signer user pull).store, applied) ∧
        s.shippedUntil rt host signer user skillId pull =
          if (wirePage response).changes.any fun change ↦ change.leases skillId.text then
            (s.backend.org.directory.activeGrant? skillId user).map fun grant ↦
              grant.offlinePolicy.leaseExpiry pull.servedAt
          else none := by
  unfold Installation.pull shippedUntil
  cases hpage : (s.request signer user pull).page rt s.backend with
  | error error => exact .inl ⟨rfl, rfl⟩
  | ok out =>
    obtain ⟨db, response⟩ := out
    cases happly : s.applyPage host pull response with
    | error error => exact .inl ⟨by simp [happly], by simp [happly, Except.toOption]⟩
    | ok out =>
      obtain ⟨store, applied⟩ := out
      exact .inr ⟨db, response, applied, rfl, by simp [happly], by simp [happly, Except.toOption]⟩

/-- A pull brings the lease that it ships, and does not revoke the skill while that lease
lasts. -/
theorem Leased.pull (htime : KeepsTime host signer instants) {s : Installation}
    {limit : Option ℕ} (h : Leased host skillId instants (s, limit)) {pull : PagePull}
    (hrange : ∀ t ∈ s.shippedUntil rt host signer user skillId pull, (t : ℤ) ∈ instants) :
    Leased host skillId instants (s.pull rt host signer user pull,
        (s.shippedUntil rt host signer user skillId pull).or limit) ∧
      ((∀ t ∈ s.shippedUntil rt host signer user skillId pull, pull.utcNow < t) →
        (s.pull rt host signer user pull).store.isRevoked skillId.text = true →
          s.store.isRevoked skillId.text = true) := by
  obtain ⟨hbound, hends, hold⟩ := h
  rcases s.pull_cases rt host pull with
    ⟨hstore, hnone⟩ | ⟨db, response, applied, hpage, happly, hships⟩
  · refine ⟨⟨?_, ?_, ?_⟩, fun _ hrevoked ↦ hstore ▸ hrevoked⟩
    · rw [hstore]
      exact hbound
    · rw [hstore, hnone, Option.none_or]
      exact hends
    · rw [hnone, Option.none_or]
      exact hold
  · -- Every lease that the page has for the skill ends where the one of its grant does.
    have hleases : ∀ change ∈ (wirePage response).changes, change.leases skillId.text = true →
        ∃ t : ℕ, s.shippedUntil rt host signer user skillId pull = some t ∧
          change.leaseEnd? host.toChrono = some (t : ℤ) := by
      intro change hchange hchanges
      obtain ⟨grant, hgrant, hend⟩ := page_leaseEnd host hpage hchange hchanges
      have hany : (wirePage response).changes.any
          (fun change ↦ change.leases skillId.text) = true :=
        List.any_eq_true.mpr ⟨change, hchange, hchanges⟩
      have hshipped : s.shippedUntil rt host signer user skillId pull =
          some (grant.offlinePolicy.leaseExpiry pull.servedAt) := by
        rw [hships, if_pos hany]
        exact congrArg _ hgrant
      refine ⟨_, hshipped, hend.trans ?_⟩
      exact congrArg Except.toOption (htime.parse _ (hrange _ hshipped))
    cases hshipped : s.shippedUntil rt host signer user skillId pull with
    | none =>
      have hnone : (wirePage response).changes.any
          (fun change ↦ change.leases skillId.text) = false := by
        rw [List.any_eq_false]
        intro change hchange hchanges
        obtain ⟨t, ht, -⟩ := hleases change hchange hchanges
        cases hshipped.symm.trans ht
      have habsent : ∀ change ∈ (wirePage response).changes,
          ¬ change.leases skillId.text = true := List.any_eq_false.mp hnone
      have hvacuous : ∀ change ∈ (wirePage response).changes, change.leases skillId.text = true →
          change.leaseEnd? host.toChrono = some 0 :=
        fun change hchange hchanges ↦ absurd hchanges (habsent change hchange)
      obtain ⟨hbound', hends'⟩ := applyChangesPage_leaseEnds hbound hends hvacuous happly
      rw [hnone] at hends'
      refine ⟨⟨hbound', hends', hold⟩, fun _ hrevoked ↦ ?_⟩
      exact applyChangesPage_isRevoked hbound
        (fun change hchange hchanges ↦ absurd hchanges (habsent change hchange)) happly hrevoked
    | some t =>
      have hend : ∀ change ∈ (wirePage response).changes, change.leases skillId.text = true →
          change.leaseEnd? host.toChrono = some (t : ℤ) := by
        intro change hchange hchanges
        obtain ⟨t', ht', hend⟩ := hleases change hchange hchanges
        cases hshipped.symm.trans ht'
        exact hend
      have hany : (wirePage response).changes.any
          (fun change ↦ change.leases skillId.text) = true := by
        by_contra hnone
        rw [hships, if_neg hnone] at hshipped
        cases hshipped
      obtain ⟨hbound', hends'⟩ := applyChangesPage_leaseEnds hbound hends hend happly
      rw [if_pos hany] at hends'
      refine ⟨⟨hbound', hends', ?_⟩, fun hlive hrevoked ↦ ?_⟩
      · rintro limit' ⟨⟩
        exact hrange t hshipped
      · refine applyChangesPage_isRevoked hbound (fun change hchange hchanges ↦ ?_) happly hrevoked
        rintro limit' hlimit
        cases (hend change hchange hchanges).symm.trans hlimit
        exact hlive t rfl

/-- An operation of the desktop leaves the lease on record, and revokes the skill only against
the condition. -/
theorem Leased.desktop (htime : KeepsTime host signer instants) (h : Leased host skillId instants x)
    {action : StoreAction} {store : LocalStore}
    (hkeeps : KeepsLease rt host signer user skillId instants x (.desktop action))
    (hstep : eventStep host x.1.store (.operation action) = some store) :
    Leased host skillId instants (⟨x.1.backend, store⟩, x.2) ∧
      (x.1.isEntitled user skillId = true → store.isRevoked skillId.text = true →
        x.1.store.isRevoked skillId.text = true) := by
  have haccess : x.1.store.KeepsAccess skillId.text action := by
    cases action with
    | expireDueEntitlements utcNow => trivial
    | _ => exact hkeeps
  refine ⟨⟨?_, ?_, h.inRange⟩, fun hentitled ↦ ?_⟩
  · refine h.bound.step ?_ hstep
    rintro _ ⟨⟩
    exact haccess
  · exact h.ends.step (by rintro utcNow change ⟨⟩) hstep
  · refine operation_isRevoked h.ends haccess ?_ hstep
    rintro utcNow rfl row hrow hexpirable instant hinstant
    obtain ⟨limit, hlimit, rfl⟩ := Option.map_eq_some_iff.mp hinstant
    obtain ⟨hrange, hlater⟩ := hkeeps hentitled row hrow hexpirable limit hlimit
    exact htime.order _ hrange _ (h.inRange limit hlimit) hlater

theorem Leased.step (htime : KeepsTime host signer instants) (h : Leased host skillId instants x)
    {action : InstallationAction} (hkeeps : KeepsLease rt host signer user skillId instants x action)
    (hstep : (leasing rt host signer user skillId).step x action = some y) :
    Leased host skillId instants y ∧
      (x.1.isEntitled user skillId = true → y.1.store.isRevoked skillId.text = true →
        x.1.store.isRevoked skillId.text = true) := by
  obtain ⟨s, limit⟩ := x
  obtain ⟨s', limit'⟩ := y
  obtain ⟨hmove, hrecord⟩ := TransitionSystem.withHistory_step_eq_some.mp hstep
  dsimp only at hmove hrecord
  subst hrecord
  cases action with
  | server action =>
    obtain ⟨backend, -, rfl⟩ := Option.map_eq_some_iff.mp hmove
    exact ⟨⟨h.bound, h.ends, h.inRange⟩, fun _ hrevoked ↦ hrevoked⟩
  | pull pull =>
    cases hmove
    obtain ⟨hleased, hspares⟩ := h.pull htime fun t ht ↦ (hkeeps t ht).1
    exact ⟨hleased, fun hentitled ↦ hspares fun t ht ↦ (hkeeps t ht).2 hentitled⟩
  | desktop action =>
    obtain ⟨store, hstore, rfl⟩ := Option.map_eq_some_iff.mp hmove
    exact h.desktop htime hkeeps hstore

theorem leased_of_fresh {s : Installation} (h : s.store = fresh) :
    Leased host skillId instants (s, none) := by
  constructor
  · intro row hrow
    rw [h] at hrow
    cases hrow
  · intro e he
    rw [h] at he
    cases he
  · exact nofun

/-- In every run from a fresh desktop whose steps meet the condition, no step taken while the
user is entitled to the skill revokes it. -/
theorem eachStep_not_revokes (htime : KeepsTime host signer instants) {start : Installation}
    (hstart : start.store = fresh) {actions : List InstallationAction}
    (hkeeps : (leasing rt host signer user skillId).EachStep
      (KeepsLease rt host signer user skillId instants) (start, none) actions) :
    (leasing rt host signer user skillId).EachStep
      (fun x action ↦ x.1.isEntitled user skillId = true →
        ¬ Revokes rt host signer user skillId x action) (start, none) actions := by
  have hleased := hkeeps.always (P := Leased host skillId instants)
    (fun x action y hx haction hstep ↦ (hx.step htime haction hstep).1) (leased_of_fresh hstart)
  refine hkeeps.of_always (fun x action hx haction hentitled ↦ ?_) hleased
  rintro ⟨y, hstep, hbefore, hafter⟩
  rw [(hx.step htime haction hstep).2 hentitled hafter] at hbefore
  cases hbefore

end

/-! ## A quiet skill -/

namespace Sample

open Server.Sample

/-- Days of one January, in seconds and as both libraries write them. -/
def january : List (ℕ × String) :=
  [(1767225600, "2026-01-01T00:00:00+00:00"), (1767744000, "2026-01-07T00:00:00+00:00"),
    (1767830400, "2026-01-08T00:00:00+00:00"), (1768262400, "2026-01-13T00:00:00+00:00"),
    (1768348800, "2026-01-14T00:00:00+00:00")]

def januaryHost : Host where
  parseFromRfc3339 := fun text ↦
    match january.find? fun entry ↦ entry.2 = text with
    | some entry => .ok entry.1
    | none => .error "input contains invalid characters"
  toRfc3339 := fun instant ↦
    ((january.find? fun entry ↦ (entry.1 : ℤ) = instant).map Prod.snd).getD ""
  tempDir := "/tmp"

def januarySigner : LeaseSigner where
  encode := fun _ ↦ "payload.signature"
  isoformat := fun t ↦ ((january.find? fun entry ↦ entry.1 = t).map Prod.snd).getD ""

def januaryDays : Set ℤ := {t | t ∈ january.map fun entry ↦ (entry.1 : ℤ)}

instance : DecidablePred (· ∈ januaryDays) := fun t ↦
  inferInstanceAs (Decidable (t ∈ january.map fun entry ↦ (entry.1 : ℤ)))

theorem keepsTime_january : KeepsTime januaryHost januarySigner januaryDays := by
  constructor
  · have hall : ∀ entry ∈ january,
        (januaryHost.parseFromRfc3339 (januarySigner.isoformat entry.1)).toOption =
          some (entry.1 : ℤ) := by decide
    intro t ht
    obtain ⟨entry, hentry, heq⟩ := List.mem_map.mp ht
    cases Int.ofNat_inj.mp heq
    exact toOption_eq_some.mp (hall entry hentry)
  · have hall : ∀ a ∈ january.map (fun entry ↦ (entry.1 : ℤ)),
        ∀ b ∈ january.map (fun entry ↦ (entry.1 : ℤ)),
          a < b → januaryHost.toRfc3339 a < januaryHost.toRfc3339 b := by decide
    exact hall

/-- The member has not pulled yet. -/
def memberStart : Installation := ⟨backendStart, fresh⟩

/-- A global skill is published, and the group has it without an offline limit. -/
def grantRun : List InstallationAction :=
  [.server (.skill (.createSkill (context version₁) user globalSkill (globalContent "# Demo"))),
    .server (.skill (.publishVersion skillId version₁)),
    .server (.grant (.grant 1 user groupId skillId ⟨.latest, none, .unlimited⟩))]

/-- The end of a cycle: one page, and the sweep. -/
def cycle (day : ℕ) : List InstallationAction :=
  [.pull ⟨storage, day, 100, 1, day⟩, .desktop (.expireDueEntitlements day)]

/-- The lease of the global skill for the member. -/
abbrev quiet : TransitionSystem (Installation × Option ℕ) InstallationAction :=
  leasing contentRuntime januaryHost januarySigner member skillId

/-- The member is entitled to the skill, and if the step is a pull, its page is served and
applied and is the last one of the feed. -/
def completes (x : Installation × Option ℕ) (action : InstallationAction) : Bool :=
  x.1.isEntitled member skillId &&
    match action with
    | .pull pull =>
      ((x.1.request januarySigner member pull).page contentRuntime x.1.backend).toOption.any
        fun page ↦ (x.1.applyPage januaryHost pull page.2).toOption.isSome && !page.2.hasMore
    | _ => true

end Sample

/-- After cycles on the first and on the seventh of January the skill is kept. -/
theorem eachStep_not_revokes_week :
    Sample.quiet.EachStep
      (fun x action ↦ x.1.isEntitled Server.Sample.member Server.Sample.skillId = true →
        ¬ Revokes Server.Sample.contentRuntime Sample.januaryHost Sample.januarySigner
          Server.Sample.member Server.Sample.skillId x action)
      (Sample.memberStart, none)
      (Sample.grantRun ++ Sample.cycle 1767225600 ++ Sample.cycle 1767744000) := by
  refine eachStep_not_revokes Sample.keepsTime_january rfl ?_
  decide +kernel

/-- The cycle on the thirteenth completes like those on the first and on the seventh, and its
sweep revokes the skill: since the first no row of the skill was served. -/
theorem quietSkill_revoked :
    ∃ x y z, Sample.quiet.run (Sample.memberStart, none) Sample.grantRun = some x ∧
      Sample.quiet.run x (Sample.cycle 1767225600 ++ Sample.cycle 1767744000) = some y ∧
      Sample.quiet.run y (Sample.cycle 1768262400) = some z ∧
      Sample.quiet.EachStep (fun x action ↦ Sample.completes x action = true) x
        (Sample.cycle 1767225600 ++ Sample.cycle 1767744000 ++ Sample.cycle 1768262400) ∧
      y.1.store.isRevoked Server.Sample.skillId.text = false ∧
      z.1.store.isRevoked Server.Sample.skillId.text = true := by
  have hrun : (Sample.quiet.run (Sample.memberStart, none) Sample.grantRun).any (fun x ↦
      (Sample.quiet.run x (Sample.cycle 1767225600 ++ Sample.cycle 1767744000)).any fun y ↦
        (Sample.quiet.run y (Sample.cycle 1768262400)).any fun z ↦
          Sample.quiet.EachStep (fun x action ↦ Sample.completes x action = true) x
            (Sample.cycle 1767225600 ++ Sample.cycle 1767744000 ++ Sample.cycle 1768262400) ∧
          y.1.store.isRevoked Server.Sample.skillId.text = false ∧
          z.1.store.isRevoked Server.Sample.skillId.text = true) = true := by
    decide +kernel
  obtain ⟨x, hx, hrun⟩ := (Option.any_eq_true _ _).mp hrun
  obtain ⟨y, hy, hrun⟩ := (Option.any_eq_true _ _).mp hrun
  obtain ⟨z, hz, hrun⟩ := (Option.any_eq_true _ _).mp hrun
  exact ⟨x, y, z, hx, hy, hz, of_decide_eq_true hrun⟩

end Sync

end SkillHive
