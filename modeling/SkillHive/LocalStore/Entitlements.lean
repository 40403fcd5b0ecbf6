import SkillHive.LocalStore.Schema

/-!
# Entitlement leases

A lease arrives inside a pulled change. It is stored as shipped, with its instants in the
normal form of `chrono`, and it moves the label of its skill at once: an expired lease
revokes a mirror, a fresh one brings a revoked mirror back. The sweep at the end of a
cycle revokes the mirrors whose lease has run out since.

The conversions of the `chrono` crate are parameters. Instants are integers.
-/

namespace SkillHive

open Foundation

namespace LocalStore

/-- The two conversions of the `chrono` crate that the lease code uses. -/
structure Chrono where
  /-- `DateTime::parse_from_rfc3339(text)` in UTC -/
  parseFromRfc3339 : String → Except String Int
  /-- `DateTime::<Utc>::to_rfc3339` -/
  toRfc3339 : Int → String

/-- The decoded `metadata.entitlement`. -/
structure EntitlementPayload where
  lease : String
  permissionLevel : String
  offlinePolicy : String
  offlineTtlHours : Option Int
  issuedAt : Option String
  expiresAt : Option String
  deriving DecidableEq, Repr

/-! ## Decoding -/

def decodeString : Json → Except String String
  | .string value => .ok value
  | _ => .error "invalid type: expected a string"

def decodeOptionString : Json → Except String (Option String)
  | .null => .ok none
  | .string value => .ok (some value)
  | _ => .error "invalid type: expected a string"

def decodeOptionI64 : Json → Except String (Option Int)
  | .null => .ok none
  | .integer value =>
    if -2 ^ 63 ≤ value ∧ value < 2 ^ 63 then .ok (some value)
    else .error "invalid value: expected i64"
  | _ => .error "invalid type: expected i64"

/-- `serde_json::from_value::<EntitlementPayload>`: an object, or the six fields in order. -/
def EntitlementPayload.fromValue : Json → Except String EntitlementPayload
  | .object fields => do
    let value := Json.object fields
    let lease ← okOr (value.get "lease") "missing field lease" >>= decodeString
    let permissionLevel ←
      okOr (value.get "permission_level") "missing field permission_level" >>= decodeString
    let offlinePolicy ←
      okOr (value.get "offline_policy") "missing field offline_policy" >>= decodeString
    let offlineTtlHours ← decodeOptionI64 ((value.get "offline_ttl_hours").getD .null)
    let issuedAt ← decodeOptionString ((value.get "issued_at").getD .null)
    let expiresAt ← decodeOptionString ((value.get "expires_at").getD .null)
    .ok { lease, permissionLevel, offlinePolicy, offlineTtlHours, issuedAt, expiresAt }
  | .array [lease, permissionLevel, offlinePolicy, offlineTtlHours, issuedAt, expiresAt] => do
    let lease ← decodeString lease
    let permissionLevel ← decodeString permissionLevel
    let offlinePolicy ← decodeString offlinePolicy
    let offlineTtlHours ← decodeOptionI64 offlineTtlHours
    let issuedAt ← decodeOptionString issuedAt
    let expiresAt ← decodeOptionString expiresAt
    .ok { lease, permissionLevel, offlinePolicy, offlineTtlHours, issuedAt, expiresAt }
  | _ => .error "invalid type: expected struct EntitlementPayload"

/-! ## Applying a lease -/

/-- An instant of the payload; a text that does not parse fails the page. -/
def parseInstant (chrono : Chrono) (skillId field : String) (text : Option String) :
    Except LocalStoreError (Option Int) :=
  match text with
  | none => .ok none
  | some text =>
    match chrono.parseFromRfc3339 text with
    | .ok instant => .ok (some instant)
    | .error error => .error (.invalidPersistedState
        s!"entitlement for {skillId} carries a malformed {field}: {error}")

/-- `INSERT INTO local_entitlements … ON CONFLICT(skill_id) DO UPDATE SET …` -/
def upsertEntitlement (entitlements : EntitlementTable) (row : StoredEntitlement) :
    Except LocalStoreError EntitlementTable := do
  require (row.offlinePolicy ∈ ["unlimited", "ttl", "disabled"]) (.database (.check "offline_policy"))
  require (∀ hours ∈ row.offlineTtlHours, 1 ≤ hours) (.database (.check "offline_ttl_hours"))
  match entitlements.get? row.skillId with
  | none => okOr (entitlements.insert? row) (.database (.primaryKey "local_entitlements"))
  | some _ => .ok (entitlements.modify row.skillId fun old ↦ { row with skillId := old.skillId })

/-- The labels that an expired lease revokes when it arrives. -/
def SkillSyncState.isMirror (state : SkillSyncState) : Bool :=
  state = .remoteOnly ∨ state = .synced

/-- What a lease does to the label of its skill. -/
def LocalSkill.reconcileLease (row : LocalSkill) (expired : Bool) : LocalSkill :=
  if expired then
    if row.syncState.isMirror then { row with syncState := .accessRevoked } else row
  else if row.syncState = .accessRevoked ∧ row.remoteId ≠ none then
    { row with syncState := .remoteOnly }
  else row

@[simp]
theorem LocalSkill.reconcileLease_id (row : LocalSkill) (expired : Bool) :
    (row.reconcileLease expired).id = row.id := by
  unfold reconcileLease
  split_ifs <;> rfl

/-- `apply_entitlement` -/
def applyEntitlement (chrono : Chrono) (store : LocalStore) (skillId : String)
    (payload : EntitlementPayload) (now : Int) : Except LocalStoreError LocalStore := do
  let expiresAt ← parseInstant chrono skillId "expires_at" payload.expiresAt
  let issuedAt ← parseInstant chrono skillId "issued_at" payload.issuedAt
  let expired : Bool := expiresAt.any fun limit ↦ limit ≤ now
  let entitlements ← upsertEntitlement store.entitlements
    { skillId := skillId
      lease := payload.lease
      permissionLevel := payload.permissionLevel
      offlinePolicy := payload.offlinePolicy
      offlineTtlHours := payload.offlineTtlHours
      issuedAt := issuedAt.map chrono.toRfc3339
      expiresAt := expiresAt.map chrono.toRfc3339 }
  .ok { store with
    entitlements
    skills := store.skills.modify skillId (fun row ↦ row.reconcileLease expired)
      fun row ↦ row.reconcileLease_id expired }

/-! ## The expiry sweep -/

/-- The labels that the sweep revokes. -/
def SkillSyncState.isExpirable (state : SkillSyncState) : Bool :=
  state = .remoteOnly ∨ state = .synced ∨ state = .syncError

def LocalSkill.expire (row : LocalSkill) : LocalSkill :=
  if row.syncState.isExpirable then { row with syncState := .accessRevoked } else row

@[simp]
theorem LocalSkill.expire_id (row : LocalSkill) : row.expire.id = row.id := by
  unfold expire
  split <;> rfl

/-- The deployment states that the sweep revokes. -/
def SkillDeployment.revoke (deployment : SkillDeployment) : SkillDeployment :=
  if deployment.state ∈ [.installing, .installed, .updating, .modified] then
    { deployment with
      state := .revoked
      lastError := some "entitlement expired; deployment revoked by offline policy" }
  else deployment

/-- `UPDATE skill_deployments SET state = 'revoked' … WHERE skill_id = ?` -/
def revokeDeployments (deployments : DeploymentTable) (skillId : String) : DeploymentTable :=
  deployments.update (fun d ↦ if d.skillId = skillId then d.revoke else d) fun d ↦ by
    unfold SkillDeployment.revoke
    split_ifs <;> rfl

/-- The skills that the sweep selects, by the text order of the stored instants. -/
def dueEntitlements (chrono : Chrono) (store : LocalStore) (now : Int) : List String :=
  (store.entitlements.rows.filter fun e ↦
    e.expiresAt.any (fun limit ↦ limit ≤ chrono.toRfc3339 now) &&
      (store.skill? e.skillId).any fun row ↦ row.syncState.isExpirable).map
    StoredEntitlement.skillId

/-- The two updates of the sweep for one selected skill. -/
def expireSkill (store : LocalStore) (skillId : String) : LocalStore :=
  { store with
    skills := store.skills.modify skillId LocalSkill.expire LocalSkill.expire_id
    deployments := revokeDeployments store.deployments skillId }

/-- `expire_due_entitlements` -/
def expireDueEntitlements (chrono : Chrono) (store : LocalStore) (now : Int) :
    LocalStore × List String :=
  let skillIds := dueEntitlements chrono store now
  (skillIds.foldl expireSkill store, skillIds)

/-! ## What a lease does -/

theorem upsertEntitlement_spec {entitlements entitlements' : EntitlementTable}
    {row : StoredEntitlement} (h : upsertEntitlement entitlements row = .ok entitlements')
    (k : String) :
    entitlements'.get? k = if k = row.skillId then some row else entitlements.get? k := by
  obtain ⟨_, -, h⟩ := bind_eq_ok.mp h
  obtain ⟨_, -, h⟩ := bind_eq_ok.mp h
  split at h
  case h_1 => exact Table.get?_insert? (okOr_eq_ok.mp h) k
  case h_2 old hold =>
    cases h
    rw [Table.get?_modify]
    by_cases hk : k = row.skillId
    · have hkey : old.skillId = row.skillId := Table.key_of_get? hold
      rw [if_pos hk, if_pos hk, hk, hold, Option.map_some, hkey]
    · rw [if_neg hk, if_neg hk]

theorem applyEntitlement_spec {chrono : Chrono} {store store' : LocalStore} {skillId : String}
    {payload : EntitlementPayload} {now : Int}
    (h : applyEntitlement chrono store skillId payload now = .ok store') :
    ∃ expired : Bool,
      (∀ k, store'.skill? k = if k = skillId
        then (store.skill? k).map fun row ↦ row.reconcileLease expired else store.skill? k) ∧
      store'.mutations = store.mutations ∧ store'.deployments = store.deployments ∧
      store'.syncState = store.syncState := by
  obtain ⟨expiresAt, -, h⟩ := bind_eq_ok.mp h
  obtain ⟨issuedAt, -, h⟩ := bind_eq_ok.mp h
  obtain ⟨entitlements, -, h⟩ := bind_eq_ok.mp h
  cases h
  refine ⟨expiresAt.any fun limit ↦ limit ≤ now, fun k ↦ ?_, rfl, rfl, rfl⟩
  simp only [skill?, Table.get?_modify]

theorem LocalSkill.expire_expire (row : LocalSkill) : row.expire.expire = row.expire := by
  unfold expire
  split <;> simp_all [SkillSyncState.isExpirable]

/-- The sweep changes labels and deployments only, and only expirable labels. -/
theorem foldl_expireSkill_spec (store : LocalStore) (skillIds : List String) :
    (∀ k, (skillIds.foldl expireSkill store).skill? k = store.skill? k ∨
      (skillIds.foldl expireSkill store).skill? k = (store.skill? k).map LocalSkill.expire) ∧
    (skillIds.foldl expireSkill store).mutations = store.mutations ∧
    (skillIds.foldl expireSkill store).entitlements = store.entitlements ∧
    (skillIds.foldl expireSkill store).syncState = store.syncState := by
  induction skillIds generalizing store with
  | nil => exact ⟨fun k ↦ Or.inl rfl, rfl, rfl, rfl⟩
  | cons skillId skillIds ih =>
    obtain ⟨hskills, hmutations, hentitlements, hsync⟩ := ih (store.expireSkill skillId)
    refine ⟨fun k ↦ ?_, hmutations, hentitlements, hsync⟩
    have hfirst : (store.expireSkill skillId).skill? k = if k = skillId
        then (store.skill? k).map LocalSkill.expire else store.skill? k := by
      simp only [expireSkill, skill?, Table.get?_modify]
    have hidem : (store.skill? k).map (LocalSkill.expire ∘ LocalSkill.expire) =
        (store.skill? k).map LocalSkill.expire := by
      simp only [Function.comp_def, LocalSkill.expire_expire]
    split at hfirst <;> rcases hskills k with hrest | hrest
    · exact Or.inr (hrest.trans hfirst)
    · exact Or.inr (by rw [List.foldl_cons, hrest, hfirst, Option.map_map, hidem])
    · exact Or.inl (hrest.trans hfirst)
    · exact Or.inr (by rw [List.foldl_cons, hrest, hfirst])

end LocalStore

end SkillHive
