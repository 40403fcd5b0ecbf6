import SkillHive.Server.Schema

/-!
# Groups, memberships and grants

The rows that decide who may see a group skill or use a global one. A group belongs to a
tree; the managers of an active group manage the active groups below it. A grant gates the
use of a global skill for the members of a group and carries the policy of its lease.
-/

namespace SkillHive

open Foundation

namespace Server

/-! ## Rows -/

/-- The columns of `users` that visibility reads. -/
structure User where
  id : RowId
  isGlobalAdmin : Bool
  deriving DecidableEq, Repr

inductive GroupStatus where
  | active
  | archived
  | deleted
  deriving DecidableEq, Repr

/-- A row of `groups`. -/
structure Group where
  id : RowId
  ownerId : RowId
  parentId : Option RowId
  status : GroupStatus
  deriving DecidableEq, Repr

inductive GroupRole where
  | owner
  | admin
  | member
  deriving DecidableEq, Repr

inductive MemberStatus where
  | active
  | removed
  | left
  deriving DecidableEq, Repr

/-- A row of `group_members`. -/
structure GroupMember where
  groupId : RowId
  userId : RowId
  role : GroupRole
  status : MemberStatus
  deriving DecidableEq, Repr

/-- `uq_group_member` -/
def GroupMember.key (member : GroupMember) : RowId × RowId := (member.groupId, member.userId)

inductive GrantStatus where
  | active
  | disabled
  | revoked
  deriving DecidableEq, Repr

/-- The offline policy of a grant; only `ttl` comes with a bound, and it is positive. -/
inductive OfflinePolicy where
  | unlimited
  | ttl (hours : ℕ) (positive : 1 ≤ hours)
  | disabled
  deriving Repr

/-- The hours that a policy allows, zero where it is disabled. -/
def OfflinePolicy.hours? : OfflinePolicy → Option ℕ
  | unlimited => none
  | ttl hours _ => some hours
  | disabled => some 0

theorem OfflinePolicy.hours?_injective : Function.Injective hours? := by
  intro policy policy' h
  cases policy <;> cases policy' <;> simp only [hours?, Option.some.injEq, reduceCtorEq] at h
  all_goals grind

instance : DecidableEq OfflinePolicy := OfflinePolicy.hours?_injective.decidableEq

/-- A row of `group_skill_grants`. -/
structure GroupSkillGrant where
  groupId : RowId
  skillId : RowId
  offlinePolicy : OfflinePolicy
  status : GrantStatus
  updatedAt : ℕ
  deriving DecidableEq, Repr

/-- `uq_group_skill_grant` -/
def GroupSkillGrant.key (grant : GroupSkillGrant) : RowId × RowId :=
  (grant.groupId, grant.skillId)

abbrev UserTable := Table User User.id
abbrev GroupTable := Table Group Group.id
abbrev MemberTable := Table GroupMember GroupMember.key
abbrev GrantTable := Table GroupSkillGrant GroupSkillGrant.key

structure Directory where
  users : UserTable
  groups : GroupTable
  members : MemberTable
  grants : GrantTable

namespace Directory

/-! ## Relationships -/

/-- `get_active` -/
def activeGroup? (dir : Directory) (groupId : RowId) : Option Group :=
  (dir.groups.get? groupId).filter fun group ↦ group.status = .active

/-- `membership` -/
def membership? (dir : Directory) (groupId userId : RowId) : Option GroupMember :=
  (dir.members.get? (groupId, userId)).filter fun member ↦ member.status = .active

/-- The chain of active groups from a group up, at most `fuel` of them. Parents form no
cycle, so the number of groups is enough fuel. -/
def roleChain (dir : Directory) : ℕ → RowId → List RowId
  | 0, _ => []
  | fuel + 1, groupId =>
    (dir.activeGroup? groupId).elim [] fun group ↦
      groupId :: group.parentId.elim [] (dir.roleChain fuel)

def GroupRole.isManager : GroupRole → Bool
  | .owner | .admin => true
  | .member => false

/-- `effective_roles`, of one group: the own role, lifted to `admin` by the managers of an
ancestor. -/
def effectiveRole (dir : Directory) (groupId userId : RowId) : Option GroupRole :=
  let chain := dir.roleChain dir.groups.rows.length groupId
  let roleIn := fun id ↦ (dir.membership? id userId).map GroupMember.role
  let own := if groupId ∈ chain then roleIn groupId else none
  let inherited := chain.any fun id ↦ id ≠ groupId ∧ (roleIn id).any GroupRole.isManager
  if own = some .owner then some .owner
  else if own = some .admin ∨ inherited then some .admin
  else own

/-- `User.is_global_admin`, false for no user. -/
def isGlobalAdmin (dir : Directory) (userId : RowId) : Bool :=
  (dir.users.get? userId).any User.isGlobalAdmin

/-- `_has_group_access` -/
def hasGroupAccess (dir : Directory) (groupId userId : RowId) : Bool :=
  dir.isGlobalAdmin userId || (dir.effectiveRole groupId userId).isSome

/-- The groups of which the user is an active member. -/
def memberGroups (dir : Directory) (userId : RowId) : List RowId :=
  (dir.members.rows.filter fun member ↦ member.userId = userId ∧ member.status = .active).map
    GroupMember.groupId

/-- An active grant of the skill to a group of the user. The rows come in no promised
order; the first of the table is taken. -/
def activeGrant? (dir : Directory) (skillId userId : RowId) : Option GroupSkillGrant :=
  dir.grants.rows.find? fun grant ↦
    grant.skillId = skillId ∧ grant.status = .active ∧ grant.groupId ∈ dir.memberGroups userId

/-- `_has_active_grant` -/
def hasActiveGrant (dir : Directory) (skillId userId : RowId) : Bool :=
  (dir.activeGrant? skillId userId).isSome

end Directory

/-! ## Leases -/

/-- The claims of a lease token; instants are seconds. -/
structure LeaseClaims where
  skillId : RowId
  permission : String
  offlinePolicy : String
  offlineTtlHours : Option ℕ
  policyVersion : ℕ
  type : String
  issuedAt : ℕ
  expiresAt : ℕ
  deriving DecidableEq, Repr

/-- What the lease code uses of the libraries: `jwt.encode` and `datetime.isoformat`. -/
structure LeaseSigner where
  encode : LeaseClaims → String
  isoformat : ℕ → String

def leaseUnlimitedTtlHours : ℕ := 24 * 7

namespace OfflinePolicy

/-- The text of the column. -/
def text : OfflinePolicy → String
  | unlimited => "unlimited"
  | ttl _ _ => "ttl"
  | disabled => "disabled"

def ttlHours : OfflinePolicy → Option ℕ
  | ttl hours _ => some hours
  | unlimited | disabled => none

/-- `lease_expiry` -/
def leaseExpiry (now : ℕ) : OfflinePolicy → ℕ
  | ttl hours _ => now + hours * 3600
  | disabled => now
  | unlimited => now + leaseUnlimitedTtlHours * 3600

end OfflinePolicy

/-- The `entitlement` object of a served change. -/
structure ShippedLease where
  lease : String
  permissionLevel : String
  offlinePolicy : OfflinePolicy
  issuedAt : String
  expiresAt : String
  deriving DecidableEq, Repr

/-- `issue_entitlement_lease`, as `_attach_entitlement_lease` ships it. -/
def issueEntitlementLease (signer : LeaseSigner) (now : ℕ) (grant : GroupSkillGrant)
    (skillId : RowId) : ShippedLease where
  lease := signer.encode
    { skillId := skillId
      permission := "use"
      offlinePolicy := grant.offlinePolicy.text
      offlineTtlHours := grant.offlinePolicy.ttlHours
      policyVersion := grant.updatedAt
      type := "skill_lease"
      issuedAt := now
      expiresAt := grant.offlinePolicy.leaseExpiry now }
  permissionLevel := "use"
  offlinePolicy := grant.offlinePolicy
  issuedAt := signer.isoformat now
  expiresAt := signer.isoformat (grant.offlinePolicy.leaseExpiry now)

end Server

end SkillHive
